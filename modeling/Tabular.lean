import Tabular.Disk.Tree
import Tabular.Main
import Tabular.Proofs.Answer
import Tabular.Proofs.Atomicity
import Tabular.Proofs.CodePointOrder
import Tabular.Proofs.Faults
import Tabular.Proofs.Grammar
import Tabular.Proofs.History
import Tabular.Proofs.Isolation
import Tabular.Proofs.Malformed
import Tabular.Proofs.NamedFields
import Tabular.Proofs.Narrowing
import Tabular.Proofs.ObjectText
import Tabular.Proofs.OrderedJson
import Tabular.Proofs.Precedence
import Tabular.Proofs.Preloading
import Tabular.Proofs.ReadRecords
import Tabular.Proofs.Resolution
import Tabular.Proofs.Rewriting
import Tabular.Proofs.RowOrder
import Tabular.Proofs.Transcript
import Tabular.Proofs.Trichotomy
import Tabular.Proofs.Wildcards
import Tabular.Proofs.WrittenManifests
import Tabular.Proofs.WrittenPatterns
import Tabular.Proofs.WrittenRows
