import Interposer.FileTree
import Interposer.Main
import Interposer.Proofs.Hook.Reporting
import Interposer.Proofs.Interface.Flattening
import Interposer.Proofs.Interface.Interchange
import Interposer.Proofs.Interface.ResolutionFailures
import Interposer.Proofs.Interface.Idempotence
import Interposer.Proofs.Wrapper.Execution
import Interposer.Proofs.Wrapper.Methods
import Interposer.Proofs.Wrapper.Rejection
import Interposer.Proofs.SignatureType.Acceptance
import Interposer.Proofs.SignatureType.Unambiguity
import Interposer.Proofs.Wrapper.Scope
import Interposer.Proofs.Wrapper.Hygiene
import Interposer.Proofs.Wrapper.Readability
import Interposer.Proofs.Package.Directory
import Interposer.Proofs.Package.Lengths
import Interposer.Proofs.Package.Scoping
import Interposer.Proofs.Package.Writing
import Interposer.Proofs.Source.DeclaredNames
import Interposer.Proofs.Source.Independence
import Interposer.Proofs.Source.Qualifiers
import Interposer.Proofs.Package.ModuleFile
import Interposer.Proofs.Wrapper.Quotation
import Interposer.Proofs.Text.SnakeCase
import Interposer.Proofs.Run
