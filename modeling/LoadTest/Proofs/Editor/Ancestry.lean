import LoadTest.Proofs.Editor.Guard
import LoadTest.Proofs.Editor.Repeats
import LoadTest.Proofs.Editor.Returning
import Mathlib.Logic.Relation

/-!
What lies below what.

If the ids of a test differ, each stands at one address, and what lies on or below a block has an
address that begins with the address of the block.  So the ids are ordered as prefixes are: they
form a forest, in which what one id lies below is a chain.

A drop puts one more link into this forest.  The guard of a drop lets a block pass only if the new
link closes no cycle (`isDescendant_order`).
-/

namespace LoadTest

open Relation (ReflTransGen TransGen)

namespace Address

/-- The way to `a` leads through `a'`. -/
def Extends (a a' : Address) : Prop :=
  a.root = a'.root ∧ a'.path <+: a.path

variable {a b c : Address}

theorem Extends.refl (a : Address) : a.Extends a :=
  ⟨rfl, List.prefix_rfl⟩

theorem Extends.trans (h : a.Extends b) (h' : b.Extends c) : a.Extends c :=
  ⟨h.1.trans h'.1, h'.2.trans h.2⟩

theorem Extends.antisymm (h : a.Extends b) (h' : b.Extends a) : a = b := by
  obtain ⟨k, p⟩ := a
  obtain ⟨l, q⟩ := b
  obtain ⟨rfl, hqp⟩ := h
  have hpath : q = p := hqp.eq_of_length_le h'.2.length_le
  rw [hpath]

/-- The addresses on the way to one address are on the way to each other. -/
theorem Extends.total (h : a.Extends b) (h' : a.Extends c) : b.Extends c ∨ c.Extends b := by
  have hroot : b.root = c.root := h.1.symm.trans h'.1
  rcases List.prefix_or_prefix_of_prefix h.2 h'.2 with hle | hle
  · exact Or.inr ⟨hroot.symm, hle⟩
  · exact Or.inl ⟨hroot, hle⟩

end Address

namespace Block

theorem at?_append (b : Block) (path rest : List Slot) :
    b.at? (path ++ rest) = (b.at? path).bind fun c => c.at? rest := by
  induction path generalizing b with
  | nil => rfl
  | cons s path ih =>
    rw [List.cons_append, at?_cons, at?_cons, Option.bind_assoc]
    exact Option.bind_congr fun c _ => ih c

/-- A search for an id looks at the block and goes on in what its slots hold. -/
theorem contains_eq_any (b : Block) (i : BlockId) :
    b.contains i = (b.id == i || b.children.any fun c => c.2.contains i) := by
  rw [contains, walk_eq, List.any_cons, List.any_flatMap]
  rfl

/-- The search finds what paths lead to. -/
theorem contains_iff_at? {b : Block} {i : BlockId} :
    b.contains i = true ↔ ∃ path x, b.at? path = some x ∧ x.id = i := by
  induction b using childInduction with
  | step b ih =>
    rw [contains_eq_any, Bool.or_eq_true, beq_iff_eq, List.any_eq_true]
    constructor
    · rintro (hid | ⟨⟨s, c⟩, hc, hfound⟩)
      · exact ⟨[], b, rfl, hid⟩
      · rw [mem_children] at hc
        obtain ⟨path, x, hx, hid⟩ := (ih s c hc).mp hfound
        refine ⟨s :: path, x, ?_, hid⟩
        rw [at?_cons, hc]
        exact hx
    · rintro ⟨path, x, hx, hid⟩
      cases path with
      | nil =>
        cases hx
        exact Or.inl hid
      | cons s path =>
        obtain ⟨c, hc, hx⟩ := Option.bind_eq_some_iff.mp hx
        exact Or.inr ⟨(s, c), mem_children.mpr hc, (ih s c hc).mpr ⟨path, x, hx, hid⟩⟩

end Block

namespace Test

variable {t : Test} {i j k : BlockId}

/-! ## Below -/

/-- A block with the id `i` lies on or below one with the id `j`: the way to it from its root,
along slots that are not empty, leads through that one. -/
def Below (t : Test) (i j : BlockId) : Prop :=
  ∃ a a', t.Carries a i ∧ t.Carries a' j ∧ a.Extends a'

theorem at?_append (t : Test) (n : Nat) (path rest : List Slot) :
    t.at? n (path ++ rest) = (t.at? n path).bind fun b => b.at? rest := by
  rw [at?, at?, Option.bind_assoc]
  exact Option.bind_congr fun r _ => r.block.at?_append path rest

theorem carries_unique (h : t.ids.Nodup) {a a' : Address} (ha : t.Carries a i)
    (ha' : t.Carries a' i) : a = a' := by
  refine occurrences_le_one_iff.mp ?_ a a' ha ha'
  rw [occurrences_eq_count]
  exact List.nodup_iff_count_le_one.mp h i

theorem Carries.id_eq {a : Address} (hi : t.Carries a i) (hj : t.Carries a j) : i = j := by
  obtain ⟨b, hb, rfl⟩ := hi
  obtain ⟨c, hc, rfl⟩ := hj
  rw [hb] at hc
  exact congrArg Block.id (Option.some.inj hc)

theorem exists_carries_iff : (∃ a, t.Carries a i) ↔ i ∈ t.ids := by
  rw [mem_ids]
  constructor
  · intro h
    obtain ⟨a, b, hb, hid⟩ := h
    exact ⟨b, mem_blocks_iff_at?.mpr ⟨a, hb⟩, hid⟩
  · intro h
    obtain ⟨b, hb, hid⟩ := h
    obtain ⟨a, ha⟩ := mem_blocks_iff_at?.mp hb
    exact ⟨a, b, ha, hid⟩

/-- Below a block lies what paths lead to from it. -/
theorem below_iff_at? (h : t.ids.Nodup) {b : Block} (hb : b ∈ t.blocks) :
    t.Below i b.id ↔ ∃ path x, b.at? path = some x ∧ x.id = i := by
  obtain ⟨a, ha⟩ := mem_blocks_iff_at?.mp hb
  have hself : t.Carries a b.id := ⟨b, ha, rfl⟩
  constructor
  · intro hbelow
    obtain ⟨a', a'', ⟨x, hx, hid⟩, hcarry, hext⟩ := hbelow
    cases carries_unique h hself hcarry
    obtain ⟨hroot, rest, hrest⟩ := hext
    rw [← hrest, at?_append, hroot, ha] at hx
    exact ⟨rest, x, hx, hid⟩
  · intro hpath
    obtain ⟨path, x, hx, hid⟩ := hpath
    refine ⟨⟨a.root, a.path ++ path⟩, a, ⟨x, ?_, hid⟩, hself, rfl, List.prefix_append _ _⟩
    rw [at?_append, ha]
    exact hx

theorem Below.mem_left (hb : t.Below i j) : i ∈ t.ids := by
  obtain ⟨a, -, ha, -⟩ := hb
  exact exists_carries_iff.mp ⟨a, ha⟩

theorem Below.mem_right (hb : t.Below i j) : j ∈ t.ids := by
  obtain ⟨-, a, -, ha, -⟩ := hb
  exact exists_carries_iff.mp ⟨a, ha⟩

theorem below_refl (hi : i ∈ t.ids) : t.Below i i := by
  obtain ⟨a, ha⟩ := exists_carries_iff.mpr hi
  exact ⟨a, a, ha, ha, Address.Extends.refl a⟩

theorem Below.trans (h : t.ids.Nodup) (hij : t.Below i j) (hjk : t.Below j k) : t.Below i k := by
  obtain ⟨a, b, ha, hb, hab⟩ := hij
  obtain ⟨b', c, hb', hc, hbc⟩ := hjk
  cases carries_unique h hb hb'
  exact ⟨a, c, ha, hc, hab.trans hbc⟩

theorem Below.antisymm (h : t.ids.Nodup) (hij : t.Below i j) (hji : t.Below j i) : i = j := by
  obtain ⟨a, b, ha, hb, hab⟩ := hij
  obtain ⟨b', a', hb', ha', hba⟩ := hji
  cases carries_unique h ha ha'
  cases carries_unique h hb hb'
  cases hab.antisymm hba
  exact ha.id_eq hb

theorem Below.total (h : t.ids.Nodup) (hij : t.Below i j) (hik : t.Below i k) :
    t.Below j k ∨ t.Below k j := by
  obtain ⟨a, b, ha, hb, hab⟩ := hij
  obtain ⟨a', c, ha', hc, hac⟩ := hik
  cases carries_unique h ha ha'
  exact (hab.total hac).imp (fun hbc => ⟨b, c, hb, hc, hbc⟩) fun hcb => ⟨c, b, hc, hb, hcb⟩

/-- Asking whether one id lies below another does not fault. -/
theorem isDescendant_eq_ok_iff (h : t.ids.Nodup) (d : Bool) :
    t.isDescendant i j = .ok d ↔ (d = true ↔ t.Below i j) := by
  by_cases hj : j ∈ t.ids
  · obtain ⟨b, hb, rfl⟩ := mem_ids.mp hj
    have hrun : t.isDescendant i b.id = .ok (b.contains i) := by
      rw [isDescendant, find?_of_mem h hb]
      rfl
    rw [hrun, below_iff_at? h hb, ← Block.contains_iff_at?, Except.ok.injEq, ← Bool.eq_iff_iff,
      eq_comm]
  · have hrun : t.isDescendant i j = .ok false := by
      rw [isDescendant, find?_of_not_mem hj]
      rfl
    have hnot : ¬ t.Below i j := fun hb => hj hb.mem_right
    rw [hrun, iff_false_right hnot, Except.ok.injEq, Bool.not_eq_true, eq_comm]

theorem isDescendant_iff (h : t.ids.Nodup) : t.isDescendant i j = .ok true ↔ t.Below i j := by
  simp [isDescendant_eq_ok_iff h]

theorem not_isDescendant_iff (h : t.ids.Nodup) :
    t.isDescendant i j = .ok false ↔ ¬ t.Below i j := by
  simp [isDescendant_eq_ok_iff h]

/-! ## Links -/

/-- A slot of a block with the id `j` holds one with the id `i`. -/
def Under (t : Test) (i j : BlockId) : Prop :=
  ∃ s, t.Holds j s i

theorem under_of_child? {b c : Block} {s : Slot} (hb : b ∈ t.blocks) (hc : b.child? s = some c) :
    t.Under c.id b.id :=
  ⟨s, b, hb, rfl, c, hc, rfl⟩

/-- What a slot holds stands one slot behind the owner. -/
theorem Under.exists_carries (hu : t.Under i j) :
    ∃ (a : Address) (s : Slot), t.Carries a j ∧ t.Carries ⟨a.root, a.path ++ [s]⟩ i := by
  obtain ⟨s, o, ho, hoj, c, hc, hci⟩ := hu
  obtain ⟨a, ha⟩ := mem_blocks_iff_at?.mp ho
  refine ⟨a, s, ⟨o, ha, hoj⟩, c, ?_, hci⟩
  rw [at?_append, ha, Option.bind_some, Block.at?_cons, hc]
  rfl

theorem Under.below (hu : t.Under i j) : t.Below i j := by
  obtain ⟨a, s, hj, hi⟩ := hu.exists_carries
  exact ⟨_, a, hi, hj, rfl, List.prefix_append a.path [s]⟩

theorem Under.ne (h : t.ids.Nodup) (hu : t.Under i j) : i ≠ j := by
  intro hij
  subst hij
  obtain ⟨a, s, hj, hi⟩ := hu.exists_carries
  have hlength := congrArg (fun x : Address => x.path.length) (carries_unique h hj hi)
  simp at hlength

/-- A path goes down link by link. -/
theorem reflTransGen_of_at? {b x : Block} {path : List Slot} (hb : b ∈ t.blocks)
    (hx : b.at? path = some x) : ReflTransGen t.Under x.id b.id := by
  induction path generalizing b with
  | nil =>
    cases hx
    exact .refl
  | cons s path ih =>
    obtain ⟨c, hc, hx⟩ := Option.bind_eq_some_iff.mp hx
    have hmem : c ∈ t.blocks :=
      mem_blocks_of_mem_walk hb (Block.mem_walk_of_child? hc (Block.mem_walk_self c))
    exact (ih hmem hx).tail (under_of_child? hb hc)

/-- What lies below a block is what links lead to from it. -/
theorem below_iff_reflTransGen (h : t.ids.Nodup) (hj : j ∈ t.ids) :
    t.Below i j ↔ ReflTransGen t.Under i j := by
  constructor
  · intro hbelow
    obtain ⟨b, hb, rfl⟩ := mem_ids.mp hj
    obtain ⟨path, x, hx, rfl⟩ := (below_iff_at? h hb).mp hbelow
    exact reflTransGen_of_at? hb hx
  · intro hlinks
    induction hlinks using ReflTransGen.head_induction_on with
    | refl => exact below_refl hj
    | head hu _ ih => exact hu.below.trans h ih

/-- No block of the test is strictly below itself. -/
theorem not_transGen_under (h : t.ids.Nodup) (i : BlockId) : ¬ TransGen t.Under i i := by
  intro hcycle
  obtain ⟨j, hij, hji⟩ := TransGen.head'_iff.mp hcycle
  have hi : i ∈ t.ids := hij.below.mem_left
  exact hij.ne h (hij.below.antisymm h ((below_iff_reflTransGen h hi).mpr hji))

/-- The links of the test and one more: a slot of `owner` holds `b` as well. -/
def Linked (t : Test) (b owner i j : BlockId) : Prop :=
  t.Under i j ∨ i = b ∧ j = owner

/-- What is reached by the links with the new one is reached without it, or by way of it. -/
theorem transGen_linked {b owner : BlockId} (hlinks : TransGen (t.Linked b owner) i j) :
    TransGen t.Under i j ∨ ReflTransGen t.Under i b ∧ ReflTransGen t.Under owner j := by
  induction hlinks with
  | single hlink =>
    rcases hlink with hu | ⟨rfl, rfl⟩
    · exact Or.inl (.single hu)
    · exact Or.inr ⟨.refl, .refl⟩
  | tail _ hlink ih =>
    rcases hlink with hu | ⟨rfl, rfl⟩
    · exact ih.imp (·.tail hu) fun hway => ⟨hway.1, hway.2.tail hu⟩
    · exact Or.inr ⟨ih.elim (·.to_reflTransGen) And.left, .refl⟩

/-- The new link closes a cycle exactly if the owner lies on or below what is put into its slot. -/
theorem exists_cycle_iff (h : t.ids.Nodup) {b owner : BlockId} (howner : owner ∈ t.ids) :
    (∃ i, TransGen (t.Linked b owner) i i) ↔ t.Below owner b := by
  constructor
  · intro hcycle
    obtain ⟨i, hi⟩ := hcycle
    rcases transGen_linked hi with hold | ⟨hib, hoi⟩
    · exact absurd hold (not_transGen_under h i)
    · have hob : ReflTransGen t.Under owner b := hoi.trans hib
      have hb : b ∈ t.ids := by
        rcases hob.cases_tail with rfl | ⟨j, -, hu⟩
        · exact howner
        · exact hu.below.mem_right
      exact (below_iff_reflTransGen h hb).mpr hob
  · intro hbelow
    have hob := (below_iff_reflTransGen h hbelow.mem_right).mp hbelow
    have hkept : t.Under ≤ t.Linked b owner := fun _ _ => Or.inl
    exact ⟨b, TransGen.head' (Or.inr ⟨rfl, rfl⟩) (ReflTransGen.mono hkept owner b hob)⟩

/-! ## The guard of a drop -/

/-- The guard looks for the owner in the block that is moved. -/
theorem canAttach_eq (h : t.ids.Nodup) {o : Block} (ho : o ∈ t.blocks) (slot : Slot) (b : Block) :
    t.canAttach o.id slot (.block b) =
      .ok ((o.kind.hasSlot slot && slot.accepts b.kind) && !(t.current b).contains o.id) := by
  rw [canAttach, find?_of_mem h ho, ok_bind]
  by_cases hfit : (o.kind.hasSlot slot && slot.accepts b.kind) = true
  · rw [hfit, Bool.true_and, find?_of_nodup h b.id]
    exact if_pos hfit
  · rw [Bool.eq_false_iff.mpr hfit]
    exact if_neg hfit

theorem canAttach_iff (h : t.ids.Nodup) {owner : BlockId} {slot : Slot} {b : Block} :
    t.canAttach owner slot (.block b) = .ok true ↔
      (∃ o ∈ t.blocks, o.id = owner ∧ o.kind.hasSlot slot = true) ∧ slot.accepts b.kind = true ∧
        ∀ path x, (t.current b).at? path = some x → x.id ≠ owner := by
  have hfree : (∀ path x, (t.current b).at? path = some x → x.id ≠ owner) ↔
      (t.current b).contains owner = false := by
    rw [← Bool.not_eq_true, Block.contains_iff_at?]
    push Not
    rfl
  rw [hfree]
  constructor
  · intro hcan
    obtain ⟨o, hfind, hslot, hacc, -⟩ := of_canAttach hcan
    obtain ⟨ho, rfl⟩ := mem_of_find?_eq_some hfind
    rw [canAttach_eq h ho, Except.ok.injEq, Bool.and_eq_true, Bool.not_eq_true'] at hcan
    exact ⟨⟨o, ho, rfl, hslot⟩, hacc, hcan.2⟩
  · rintro ⟨⟨o, ho, rfl, hslot⟩, hacc, hout⟩
    rw [canAttach_eq h ho, hslot, hacc, hout]
    rfl

/-- The block that is moved has below it what the test has below its id. -/
theorem below_iff_current (h : t.ids.Nodup) {b : Block} (hb : b.id ∈ t.ids) :
    t.Below i b.id ↔ ∃ path x, (t.current b).at? path = some x ∧ x.id = i := by
  obtain ⟨hmem, hid⟩ := current_mem h hb
  rw [← hid, below_iff_at? h hmem]

/-- A drop that the guard lets pass closes no cycle. -/
theorem not_cycle_of_canAttach (h : t.ids.Nodup) {owner : BlockId} {slot : Slot} {b : Block}
    (hcan : t.canAttach owner slot (.block b) = .ok true) (i : BlockId) :
    ¬ TransGen (t.Linked b.id owner) i i := by
  intro hcycle
  obtain ⟨⟨o, ho, rfl, -⟩, -, hout⟩ := (canAttach_iff h).mp hcan
  have howner : o.id ∈ t.ids := mem_ids.mpr ⟨o, ho, rfl⟩
  have hbelow : t.Below o.id b.id := (exists_cycle_iff h howner).mp ⟨i, hcycle⟩
  obtain ⟨path, x, hx, hxo⟩ := (below_iff_current h hbelow.mem_right).mp hbelow
  exact hout path x hx hxo

/-- The ids of a test are ordered by what lies on or below what, if they differ, and what one id
lies below is a chain.  The guard of a drop looks for the owner in all of the block that is moved,
so that no drop that it lets pass closes a cycle; and an owner closes one exactly if it lies on or
below that block. -/
theorem isDescendant_order (h : t.ids.Nodup) :
    (∀ i j, (t.isDescendant i j = .ok true ↔ t.Below i j) ∧
      (t.isDescendant i j = .ok false ↔ ¬ t.Below i j)) ∧
    (∀ i ∈ t.ids, t.isDescendant i i = .ok true) ∧
    (∀ i j, t.isDescendant i j = .ok true → t.isDescendant j i = .ok true → i = j) ∧
    (∀ i j k, t.isDescendant i j = .ok true → t.isDescendant j k = .ok true →
      t.isDescendant i k = .ok true) ∧
    (∀ i j k, t.isDescendant i j = .ok true → t.isDescendant i k = .ok true →
      t.isDescendant j k = .ok true ∨ t.isDescendant k j = .ok true) ∧
    ∀ owner slot b,
      (t.canAttach owner slot (.block b) = .ok true ↔
        (∃ o ∈ t.blocks, o.id = owner ∧ o.kind.hasSlot slot = true) ∧ slot.accepts b.kind = true ∧
          ∀ path x, (t.current b).at? path = some x → x.id ≠ owner) ∧
      (t.canAttach owner slot (.block b) = .ok true → ∀ i, ¬ TransGen (t.Linked b.id owner) i i) ∧
      (owner ∈ t.ids → ((∃ i, TransGen (t.Linked b.id owner) i i) ↔
        t.isDescendant owner b.id = .ok true)) := by
  refine ⟨fun i j => ⟨isDescendant_iff h, not_isDescendant_iff h⟩, ?_⟩
  simp only [isDescendant_iff h]
  refine ⟨fun i hi => below_refl hi, fun i j hij hji => hij.antisymm h hji,
    fun i j k hij hjk => hij.trans h hjk, fun i j k hij hik => hij.total h hik, ?_⟩
  intro owner slot b
  exact ⟨canAttach_iff h, not_cycle_of_canAttach h, exists_cycle_iff h⟩

/-- In the check, whose target is a group of two requests: the group may go behind another request,
but not into itself. -/
theorem isDescendant_order_misfit :
    let group := Block.group "g" "" (some (plainRequest "a" none)) (some (plainRequest "b" none))
    misfit.ids.Nodup ∧ misfit.isDescendant "a" "g" = .ok true ∧
      misfit.isDescendant "a" "c" = .ok true ∧ misfit.Below "a" "c" ∧
      (misfit.isDescendant "g" "c" = .ok true ∨ misfit.isDescendant "c" "g" = .ok true) ∧
      ¬ misfit.Below "c" "a" ∧ misfit.canAttach "p" .next (.block group) = .ok true ∧
      (∀ i, ¬ TransGen (misfit.Linked "g" "p") i i) ∧
      misfit.canAttach "b" .next (.block group) = .ok false ∧
      ∃ i, TransGen (misfit.Linked "g" "b") i i := by
  intro group
  have hids : misfit.ids.Nodup := by decide
  obtain ⟨hbelow, -, -, -, hchain, hguard⟩ := isDescendant_order hids
  have hpasses : misfit.canAttach "p" .next (.block group) = .ok true := rfl
  exact ⟨hids, rfl, rfl, (hbelow "a" "c").1.mp rfl, hchain "a" "g" "c" rfl rfl,
    (hbelow "c" "a").2.mp rfl, hpasses, (hguard "p" .next group).2.1 hpasses, rfl,
    ((hguard "b" .next group).2.2 (by decide)).mpr rfl⟩

end Test
end LoadTest
