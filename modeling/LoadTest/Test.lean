import LoadTest.Block.Build
import LoadTest.Block.Rewrite
import LoadTest.Library

/-!
Tests: blocks placed on a canvas, and the library they draw on.  A document is a test as it is
saved, under a version.
-/

namespace LoadTest

/-- Where a block is placed on the canvas. -/
structure Position where
  top : Float
  left : Float

/-- A block placed directly on the canvas. -/
structure Root where
  position : Position
  block : Block

structure Test where
  library : Library
  roots : List Root

structure Document where
  version : UInt32
  library : Library
  roots : List Root

namespace Test

def empty : Test := ⟨Library.empty, []⟩

/-! ## Placing blocks -/

/-- The distance between blocks that are placed without a position. -/
def rootSpacing : Float := 200

def placeAt (t : Test) (b : Block) (p : Position) : Test :=
  { t with roots := t.roots ++ [⟨p, b⟩] }

/-- Place `b` below the blocks that are there. -/
def place (t : Test) (b : Block) : Test :=
  t.placeAt b ⟨Float.ofNat t.roots.length * rootSpacing, 0⟩

/-! ## Walking and rewriting -/

/-- Every block, in the order of a walk. -/
def blocks (t : Test) : List Block :=
  t.roots.flatMap fun r => r.block.walk

variable {σ β : Type}

/-- Visit every block with a state; an error stops the visit. -/
def visit (f : σ → Block → Except β σ) (x : σ) (t : Test) : Except β σ :=
  t.roots.foldlM (fun x r => r.block.visit f x) x

/-- A visit is the fold over the blocks. -/
theorem visit_eq_foldlM (f : σ → Block → Except β σ) (x : σ) (t : Test) :
    t.visit f x = t.blocks.foldlM f x := by
  simp only [visit, blocks, Block.visit_eq_foldlM]
  induction t.roots generalizing x with
  | nil => rfl
  | cons r rs ih => simp [List.foldlM_append, ih]

/-- Rewrite the roots and everything below them; a root that is emptied leaves the canvas. -/
def rewriteRoots (f : Block → StateM σ Rewrite) : List Root → StateM σ (List Root)
  | [] => return []
  | r :: rs => do
    match ← Block.rewriteSlot f (some r.block) with
    | some b => return { r with block := b } :: (← rewriteRoots f rs)
    | none => rewriteRoots f rs

def rewrite (f : Block → StateM σ Rewrite) (t : Test) : StateM σ Test := do
  return { t with roots := ← rewriteRoots f t.roots }

theorem rewriteRoots_descend : ∀ rs : List Root,
    rewriteRoots (fun _ => (pure .descend : StateM σ Rewrite)) rs = pure rs
  | [] => rfl
  | r :: rs => by simp [rewriteRoots, Block.rewriteSlot_descend, rewriteRoots_descend rs]

@[simp] theorem rewrite_descend (t : Test) :
    t.rewrite (fun _ => (pure .descend : StateM σ Rewrite)) = pure t := by
  simp [rewrite, rewriteRoots_descend]

end Test

/-! ## Saving -/

inductive DocumentError where
  | unsupportedVersion (found : UInt32)
  deriving DecidableEq

namespace Document

/-- The version of every saved document. -/
def currentVersion : UInt32 := 0

def ofTest (t : Test) : Document :=
  ⟨currentVersion, t.library, t.roots⟩

/-- The test that was saved, if the version is the current one. -/
def toTest (d : Document) : Except DocumentError Test :=
  if d.version = currentVersion then .ok ⟨d.library, d.roots⟩
  else .error (.unsupportedVersion d.version)

@[simp] theorem toTest_ofTest (t : Test) : (ofTest t).toTest = .ok t := by
  simp [ofTest, toTest]

end Document

namespace DocumentError

def message : DocumentError → String
  | unsupportedVersion found =>
    "unsupported document version " ++ toString found.toNat ++ ", expected " ++
      toString Document.currentVersion.toNat

end DocumentError
end LoadTest
