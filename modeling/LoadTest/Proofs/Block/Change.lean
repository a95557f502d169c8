import LoadTest.Block.Rewrite
import LoadTest.Proofs.Block.Tree

/-!
Changes by id.

A change says for every id what becomes of the blocks that have it.  A rewrite that goes by ids
alone is a change (`run_rewrite`), and a change after a change is a change (`alter_alter`), so two
edits of a tree are compared by what they do to one id.
-/

namespace LoadTest

/-- What becomes of a block, by its id. -/
def Change := BlockId → Rewrite

namespace Block

mutual

/-- Change what the slots of the block hold. -/
def alter (g : Change) : Block → Block
  | scenario id name e s => scenario id name (alterSlot g e) (alterSlot g s)
  | group id name s n => group id name (alterSlot g s) (alterSlot g n)
  | request id r n => request id r (alterSlot g n)
  | library id call n => library id call (alterSlot g n)
  | check id es t n => check id es (alterSlot g t) (alterSlot g n)
  | executor id shape => executor id shape
  | sleep id x n => sleep id x (alterSlot g n)

def alterSlot (g : Change) : Option Block → Option Block
  | none => none
  | some b =>
    match g b.id with
    | .replace c => c
    | .descend => some (b.alter g)

end

@[simp] theorem bare_alter (g : Change) (b : Block) : (b.alter g).bare = b.bare := by
  cases b <;> simp [alter, bare]

@[simp] theorem id_alter (g : Change) (b : Block) : (b.alter g).id = b.id :=
  id_eq_of_bare_eq (bare_alter g b)

@[simp] theorem kind_alter (g : Change) (b : Block) : (b.alter g).kind = b.kind :=
  kind_eq_of_bare_eq (bare_alter g b)

theorem child?_alter (g : Change) (b : Block) (s : Slot) :
    (b.alter g).child? s = alterSlot g (b.child? s) := by
  cases b <;> cases s <;> simp [alter, child?, alterSlot]

variable {g : Change} {b : Block}

theorem alterSlot_of_descend (h : g b.id = .descend) :
    alterSlot g (some b) = some (b.alter g) := by
  rw [alterSlot, h]

theorem alterSlot_of_replace {c : Option Block} (h : g b.id = .replace c) :
    alterSlot g (some b) = c := by
  rw [alterSlot, h]

/-! ## Rewrites -/

section

variable {σ : Type} {f : Block → StateM σ Rewrite} {g : Change}

mutual

/-- A rewrite that goes by ids alone is a change. -/
theorem run_rewrite (hf : ∀ b s, ((f b).run s).1 = g b.id) :
    ∀ (b : Block) (s : σ), ((b.rewrite f).run s).1 = b.alter g
  | scenario id name e st, s =>
    congrArg₂ (scenario id name) (run_rewriteSlot hf e s) (run_rewriteSlot hf st _)
  | group id name st n, s =>
    congrArg₂ (group id name) (run_rewriteSlot hf st s) (run_rewriteSlot hf n _)
  | request id r n, s => congrArg (request id r) (run_rewriteSlot hf n s)
  | library id call n, s => congrArg (library id call) (run_rewriteSlot hf n s)
  | check id es t n, s =>
    congrArg₂ (check id es) (run_rewriteSlot hf t _) (run_rewriteSlot hf n s)
  | executor .., _ => rfl
  | sleep id x n, s => congrArg (sleep id x) (run_rewriteSlot hf n s)

theorem run_rewriteSlot (hf : ∀ b s, ((f b).run s).1 = g b.id) :
    ∀ (c : Option Block) (s : σ), ((rewriteSlot f c).run s).1 = alterSlot g c
  | none, _ => rfl
  | some b, s => by
    rw [alterSlot, ← hf b s, rewriteSlot, StateT.run_bind]
    cases hrun : (f b).run s with
    | mk r s' =>
      cases r with
      | replace c => rfl
      | descend => exact congrArg some (run_rewrite hf b s')

end

end

/-! ## One change after another -/

end Block

namespace Change

/-- The blocks with the id are replaced, or taken out, and no others. -/
def only (i : BlockId) (x : Option Block) : Change :=
  fun j => if j = i then .replace x else .descend

/-- The change `g` and then `h`, which is made in what `g` puts in as well. -/
def andThen (g h : Change) : Change := fun i =>
  match g i with
  | .replace c => .replace (Block.alterSlot h c)
  | .descend => h i

/-- Each of the blocks is left or put back. -/
def Keeps (g : Change) (bs : List Block) : Prop :=
  ∀ b ∈ bs, g b.id = .descend ∨ g b.id = .replace (some b)

theorem keeps_cons {g : Change} {b : Block} {bs : List Block} :
    g.Keeps (b :: bs) ↔ (g b.id = .descend ∨ g b.id = .replace (some b)) ∧ g.Keeps bs :=
  List.forall_mem_cons

theorem keeps_append {g : Change} {as bs : List Block} :
    g.Keeps (as ++ bs) ↔ g.Keeps as ∧ g.Keeps bs :=
  List.forall_mem_append

variable {i j : BlockId} {x y : Option Block}

theorem only_self (i : BlockId) (x : Option Block) : only i x i = .replace x :=
  if_pos rfl

theorem only_of_ne (h : j ≠ i) (x : Option Block) : only i x j = .descend :=
  if_neg h

theorem andThen_of_replace {g : Change} (h : g i = .replace x) (k : Change) :
    g.andThen k i = .replace (Block.alterSlot k x) := by
  rw [andThen, h]

theorem andThen_of_descend {g : Change} (h : g i = .descend) (k : Change) :
    g.andThen k i = k i := by
  rw [andThen, h]

end Change

namespace Block

open Change (only only_self only_of_ne andThen_of_replace andThen_of_descend)

mutual

theorem alter_alter (g h : Change) : ∀ b : Block, (b.alter g).alter h = b.alter (g.andThen h)
  | scenario .. | group .. | request .. | library .. | check .. | executor .. | sleep .. => by
    simp [alter, alterSlot_alterSlot]

theorem alterSlot_alterSlot (g h : Change) :
    ∀ c : Option Block, alterSlot h (alterSlot g c) = alterSlot (g.andThen h) c
  | none => rfl
  | some b => by
    cases hg : g b.id with
    | descend =>
      rw [alterSlot_of_descend hg, alterSlot, alterSlot, andThen_of_descend hg, id_alter,
        alter_alter]
    | replace c => rw [alterSlot_of_replace hg, alterSlot_of_replace (andThen_of_replace hg h)]

end

mutual

/-- A change that keeps every block changes nothing. -/
theorem alter_of_keeps {g : Change} : ∀ b : Block, g.Keeps b.walk → b.alter g = b
  | scenario .. | group .. | request .. | library .. | check .. | executor .. | sleep .. => by
    intro h
    simp only [walk, Change.keeps_cons, Change.keeps_append] at h
    simp [alter, alterSlot_of_keeps, h]

theorem alterSlot_of_keeps {g : Change} :
    ∀ c : Option Block, g.Keeps (walkSlot c) → alterSlot g c = c
  | none, _ => rfl
  | some b, h => by
    rcases h b (mem_walk_self b) with hb | hb
    · rw [alterSlot_of_descend hb, alter_of_keeps b h]
    · rw [alterSlot_of_replace hb]

end

end Block

namespace Change

variable {i j : BlockId} {x y : Option Block}

/-- Nothing is replaced where the id does not occur. -/
theorem alterSlot_only_of_not_mem {c : Option Block} (h : ∀ b ∈ Block.walkSlot c, b.id ≠ i)
    (x : Option Block) : Block.alterSlot (only i x) c = c :=
  Block.alterSlot_of_keeps c fun b hb => Or.inl (only_of_ne (h b hb) x)

/-- Of two changes of one id the second is made in what the first put in. -/
theorem only_andThen_self (i : BlockId) (x y : Option Block) :
    (only i x).andThen (only i y) = only i (Block.alterSlot (only i y) x) := by
  funext k
  by_cases hk : k = i
  · subst hk
    rw [andThen_of_replace (only_self k x), only_self]
  · rw [andThen_of_descend (only_of_ne hk x), only_of_ne hk, only_of_ne hk]

/-- Changes of two ids commute if neither puts in a block with the id of the other. -/
theorem only_andThen_comm (hij : i ≠ j) (hx : ∀ b ∈ Block.walkSlot x, b.id ≠ j)
    (hy : ∀ b ∈ Block.walkSlot y, b.id ≠ i) :
    (only i x).andThen (only j y) = (only j y).andThen (only i x) := by
  funext k
  by_cases hi : k = i
  · subst hi
    rw [andThen_of_replace (only_self k x), alterSlot_only_of_not_mem hx,
      andThen_of_descend (only_of_ne hij y), only_self]
  · rw [andThen_of_descend (only_of_ne hi x)]
    by_cases hj : k = j
    · subst hj
      rw [only_self, andThen_of_replace (only_self k y), alterSlot_only_of_not_mem hy]
    · rw [only_of_ne hj, andThen_of_descend (only_of_ne hj y), only_of_ne hi]

end Change

/-! ## One block for another -/

namespace Block

open Change (only only_self only_of_ne)

/-- The tree with `c` for every block with the id. -/
def put (b : Block) (i : BlockId) (c : Block) : Block :=
  if b.id = i then c else b.alter (only i (some c))

variable {b : Block} {i : BlockId}

theorem put_of_eq (h : b.id = i) (c : Block) : b.put i c = c :=
  if_pos h

theorem put_of_ne (h : b.id ≠ i) (c : Block) : b.put i c = b.alter (only i (some c)) :=
  if_neg h

theorem alterSlot_only_some (i : BlockId) (b c : Block) :
    alterSlot (only i (some c)) (some b) = some (b.put i c) := by
  by_cases h : b.id = i
  · subst h
    rw [put_of_eq rfl, alterSlot_of_replace (only_self b.id (some c))]
  · rw [put_of_ne h, alterSlot_of_descend (only_of_ne h (some c))]

theorem bare_put (h : b.id ≠ i) (c : Block) : (b.put i c).bare = b.bare := by
  rw [put_of_ne h, bare_alter]

theorem child?_put (h : b.id ≠ i) (c : Block) (s : Slot) :
    (b.put i c).child? s = (b.child? s).map fun d => d.put i c := by
  rw [put_of_ne h, child?_alter]
  cases b.child? s with
  | none => rfl
  | some d => exact alterSlot_only_some i d c

end Block
end LoadTest
