import LoadTest.Editor
import LoadTest.Palette
import LoadTest.Main
import LoadTest.Proofs.Editor.Soundness
import LoadTest.Proofs.Editor.Moving
import LoadTest.Proofs.Script.Pretty
import LoadTest.Proofs.Completeness.RoundTrip
import LoadTest.Proofs.Plan.Building
import LoadTest.Proofs.Script.Literals
import LoadTest.Proofs.Script.Independence
import LoadTest.Proofs.Script.Declarations
import LoadTest.Proofs.Script.Substitution
import LoadTest.Proofs.Editor.Insertion
import LoadTest.Proofs.Json.RoundTrip
import LoadTest.Proofs.Saving
import LoadTest.Proofs.Completeness.Collection
import LoadTest.Proofs.Completeness.Renaming
import LoadTest.Proofs.Editor.Guard
import LoadTest.Proofs.Layout.Outline
import LoadTest.Proofs.Script.Functions
import LoadTest.Proofs.Script.Verb
import LoadTest.Proofs.Script.Query
import LoadTest.Proofs.Environment.Leftovers
import LoadTest.Proofs.Editor.Copying
import LoadTest.Proofs.Completeness.Clashes
import LoadTest.Proofs.Environment.Simultaneous
import LoadTest.Proofs.Palette.Parameters
import LoadTest.Proofs.Editor.Updating
import LoadTest.Proofs.Editor.Detaching
import LoadTest.Proofs.Editor.Returning
import LoadTest.Proofs.Block.Joining
import LoadTest.Proofs.Editor.Modifying
import LoadTest.Proofs.Layout.Idempotence
import LoadTest.Proofs.Layout.Inspection
import LoadTest.Proofs.Layout.NormalForm
import LoadTest.Proofs.Layout.Verdict
import LoadTest.Proofs.Completeness.Defects
import LoadTest.Proofs.Script.Names
import LoadTest.Proofs.Script.Encoding
import LoadTest.Proofs.Palette.Templates
import LoadTest.Proofs.Palette.Instances
import LoadTest.Proofs.Editor.Repeats
import LoadTest.Proofs.Editor.Ancestry
import LoadTest.Proofs.Editor.Traversal
