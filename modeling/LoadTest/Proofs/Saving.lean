import LoadTest.Loading
import LoadTest.Proofs.Block.Trail
import LoadTest.Proofs.Json.Text

/-!
Loading what was saved.

A document nests its blocks in each other, so the brackets of its text are as deep as its longest
way from a root through slots.  A test can be loaded again exactly if these are not too deep for
the reader, however short its texts are.
-/

namespace LoadTest
namespace Json

/-! ## Values that are written -/

theorem depthItems_le_iff {items : List Json} {d : Nat} :
    depthItems items ≤ d ↔ ∀ j ∈ items, j.depth ≤ d := by
  induction items with
  | nil => simp [depthItems]
  | cons j items ih => simp [depthItems, ih]

theorem depthFields_le_iff {fields : List (String × Json)} {d : Nat} :
    depthFields fields ≤ d ↔ ∀ e ∈ fields, e.2.depth ≤ d := by
  induction fields with
  | nil => simp [depthFields]
  | cons e fields ih => simp [depthFields, ih]

theorem depth_lt_of_mem_fields {fields : List (String × Json)} {e : String × Json}
    (he : e ∈ fields) : e.2.depth < (obj fields).depth := by
  rw [depth]
  exact Nat.lt_succ_of_le (depthFields_le_iff.mp (Nat.le_refl _) e he)

/-- A value whose numbers have a JSON form and whose brackets are at most `d` deep. -/
structure Flat (d : Nat) (j : Json) : Prop where
  proper : j.Proper
  depth_le : j.depth ≤ d

namespace Flat

variable {d : Nat}

theorem mono {j : Json} (h : j.Flat d) {e : Nat} (hde : d ≤ e) : j.Flat e :=
  ⟨h.proper, Nat.le_trans h.depth_le hde⟩

theorem null : Json.null.Flat d := ⟨trivial, Nat.zero_le d⟩

theorem bool (b : Bool) : (Json.bool b).Flat d := ⟨trivial, Nat.zero_le d⟩

theorem str (s : String) : (Json.str s).Flat d := ⟨trivial, Nat.zero_le d⟩

theorem number (x : Float) : (Json.number x).Flat d := by
  rw [Json.number]
  by_cases h : Decimal.isFinite x = true
  · rw [if_pos h]
    exact ⟨h, Nat.zero_le d⟩
  · rw [if_neg h]
    exact null

theorem nat {n : Nat} (h : n < UInt64.size) : (Json.int n).Flat d := by
  refine ⟨?_, Nat.zero_le d⟩
  show isWord n = true
  rw [isWord, Bool.and_eq_true, decide_eq_true_eq, decide_eq_true_eq]
  have hhalf : (0 : Int) ≤ Int.ofNat (Nat.pow 2 63) := Int.natCast_nonneg _
  exact ⟨by omega, Int.ofNat_lt.mpr h⟩

theorem uint16 (n : UInt16) : (Json.int n.toNat).Flat d :=
  nat (Nat.lt_of_lt_of_le n.toNat_lt (by decide))

theorem uint32 (n : UInt32) : (Json.int n.toNat).Flat d :=
  nat (Nat.lt_of_lt_of_le n.toNat_lt (by decide))

theorem arr {items : List Json} (h : ∀ j ∈ items, j.Flat d) : (Json.arr items).Flat (d + 1) := by
  refine ⟨?_, ?_⟩
  · rw [Proper, properItems_iff]
    exact fun j hj => (h j hj).proper
  · rw [depth]
    exact Nat.succ_le_succ (depthItems_le_iff.mpr fun j hj => (h j hj).depth_le)

theorem obj {fields : List (String × Json)} (h : ∀ e ∈ fields, e.2.Flat d) :
    (Json.obj fields).Flat (d + 1) := by
  refine ⟨?_, ?_⟩
  · rw [Proper, properFields_iff]
    exact fun e he => (h e he).proper
  · rw [depth]
    exact Nat.succ_le_succ (depthFields_le_iff.mpr fun e he => (h e he).depth_le)

theorem list {α : Type} {write : α → Json} (h : ∀ x, (write x).Flat d) (l : List α) :
    (Json.arr (l.map write)).Flat (d + 1) :=
  arr (List.forall_mem_map.mpr fun x _ => h x)

theorem dict {α : Type} {write : α → Json} (h : ∀ x, (write x).Flat d) (m : Dict α) :
    (ofDict write m).Flat (d + 1) :=
  obj (List.forall_mem_map.mpr fun e _ => h e.2)

end Flat

mutual

theorem proper_canonical : ∀ j : Json, j.canonical.Proper
  | null | bool _ | str _ => trivial
  | int n => by
    rw [canonical, integer]
    by_cases h : isWord n = true
    · rw [if_pos h]
      exact h
    · rw [if_neg h]
      exact (Flat.number (d := 0) _).proper
  | float x => (Flat.number (d := 0) x).proper
  | arr items => by
    rw [canonical, Proper, properItems_iff]
    exact proper_canonicalItems items
  | obj fields => by
    rw [canonical, Proper, properFields_iff]
    exact fun e he => proper_canonicalFields fields e (Dict.mem_of_mem_ofList he)

theorem proper_canonicalItems : ∀ items : List Json, ∀ j ∈ canonicalItems items, j.Proper
  | [] => List.forall_mem_nil _
  | j :: items => List.forall_mem_cons.mpr ⟨proper_canonical j, proper_canonicalItems items⟩

theorem proper_canonicalFields : ∀ fields : List (String × Json),
    ∀ e ∈ canonicalFields fields, e.2.Proper
  | [] => List.forall_mem_nil _
  | (_, j) :: fields => List.forall_mem_cons.mpr ⟨proper_canonical j, proper_canonicalFields fields⟩

end

end Json

open Json (Flat)

theorem Library.proper_schema (l : Library) : l.schema.Proper :=
  l.canonical_schema ▸ Json.proper_canonical l.schema

/-! ## Blocks -/

theorem NameValue.flat_toJson (p : NameValue) : p.toJson.Flat 1 := by
  refine Flat.obj ?_
  simp [Flat.str]

theorem Parameter.flat_toJson (p : Parameter) : p.toJson.Flat 1 := by
  cases p <;> refine Flat.obj ?_ <;> simp [Flat.str, Flat.number, Flat.bool]

theorem Expectation.flat_toJson (e : Expectation) : e.toJson.Flat 1 := by
  cases e <;> refine Flat.obj ?_ <;> simp [Flat.str, Flat.uint16]

theorem Stage.flat_toJson (s : Stage) : s.toJson.Flat 1 := by
  refine Flat.obj ?_
  simp [Flat.str, Flat.uint32]

theorem Executor.flat_toJson (e : Executor) : e.toJson.Flat 3 := by
  cases e with
  | constant vus duration =>
    refine Flat.obj ?_
    simp [Flat.str, Flat.uint32]
  | ramping startVus stages =>
    refine Flat.obj ?_
    cases startVus <;>
      simp [startField, Flat.str, Flat.uint32, Flat.list Stage.flat_toJson stages]

namespace Block

/-- What a slot holds is a field of the saved block. -/
theorem exists_field_of_child? {b c : Block} {s : Slot} (h : b.child? s = some c) :
    ∃ fields, b.toJson = .obj fields ∧ (s.name, c.toJson) ∈ fields := by
  cases b <;> cases s <;> cases h <;>
    exact ⟨_, by rw [toJson], by simp [Slot.name, slotToJson]⟩

/-- The other fields of a saved block nest little. -/
theorem exists_flat_fields (b : Block) : ∃ fields, b.toJson = .obj fields ∧
    ∀ e ∈ fields, e.2.Flat 3 ∨ ∃ s c, b.child? s = some c ∧ e.2 = c.toJson := by
  have hslot : ∀ (s : Slot) (x : Option Block), b.child? s = x →
      (slotToJson x).Flat 3 ∨ ∃ s c, b.child? s = some c ∧ slotToJson x = c.toJson := by
    intro s x hx
    cases x with
    | none => exact Or.inl Flat.null
    | some c => exact Or.inr ⟨s, c, hx, rfl⟩
  cases b with
  | scenario id name e s =>
    refine ⟨_, by rw [toJson], ?_⟩
    simp [heading, Flat.str, hslot .executor e rfl, hslot .step s rfl]
  | group id name s n =>
    refine ⟨_, by rw [toJson], ?_⟩
    simp [heading, Flat.str, hslot .step s rfl, hslot .next n rfl]
  | request id r n =>
    have hlist := fun l => (Flat.list NameValue.flat_toJson l).mono (e := 3) (by decide)
    refine ⟨_, by rw [toJson], ?_⟩
    simp [heading, Request.toFields, Flat.str, hlist, hslot .next n rfl]
  | library id call n =>
    have hdict := (Flat.dict Parameter.flat_toJson call.parameters).mono (e := 3) (by decide)
    refine ⟨_, by rw [toJson], ?_⟩
    simp [heading, LibraryCall.toFields, Flat.str, hdict, hslot .next n rfl]
  | check id es t n =>
    have hlist := (Flat.list Expectation.flat_toJson es).mono (e := 3) (by decide)
    refine ⟨_, by rw [toJson], ?_⟩
    simp [heading, Flat.str, hlist, hslot .target t rfl, hslot .next n rfl]
  | executor id shape =>
    refine ⟨_, by rw [toJson], ?_⟩
    simp [heading, Flat.str, shape.flat_toJson]
  | sleep id x n =>
    refine ⟨_, by rw [toJson], ?_⟩
    simp [heading, Flat.str, Flat.number, hslot .next n rfl]

theorem proper_toJson (b : Block) : b.toJson.Proper := by
  induction b using childInduction with
  | step b ih =>
    obtain ⟨fields, hb, hfields⟩ := b.exists_flat_fields
    rw [hb, Json.Proper, Json.properFields_iff]
    intro e he
    rcases hfields e he with hflat | ⟨s, c, hc, hvalue⟩
    · exact hflat.proper
    · rw [hvalue]
      exact ih s c hc

theorem depth_lt_of_child? {b c : Block} {s : Slot} (h : b.child? s = some c) :
    c.toJson.depth < b.toJson.depth := by
  obtain ⟨fields, hb, hmem⟩ := exists_field_of_child? h
  rw [hb]
  exact Json.depth_lt_of_mem_fields hmem

/-- What stands at the end of a trail nests less deep by the length of the trail. -/
theorem depth_fill {trail : List Frame} {b top : Block}
    (h : fill trail (some b) = some top) : trail.length + b.toJson.depth ≤ top.toJson.depth := by
  induction trail generalizing top with
  | nil =>
    cases h
    rw [List.length_nil, Nat.zero_add]
  | cons f trail ih =>
    rw [fill_cons, Option.some.injEq] at h
    subst h
    cases hfill : fill trail (some b) with
    | none =>
      cases trail <;> cases hfill
    | some c =>
      have hchild : (f.fill (some c)).child? f.slot = some c := f.child?_fill (some c)
      have hlt := depth_lt_of_child? hchild
      have hle := ih hfill
      rw [List.length_cons]
      omega

/-- A block nests its fields at the end of the longest trail below it. -/
theorem flat_toJson {b : Block} {k : Nat}
    (h : ∀ trail x, fill trail (some x) = some b → trail.length ≤ k) : b.toJson.Flat (k + 4) := by
  induction b using childInduction generalizing k with
  | step b ih =>
    obtain ⟨fields, hb, hfields⟩ := b.exists_flat_fields
    rw [hb]
    refine Flat.obj (d := k + 3) fun e he => ?_
    rcases hfields e he with hflat | ⟨s, c, hc, hvalue⟩
    · exact hflat.mono (by omega)
    · have hlonger : ∀ trail x, fill trail (some x) = some c → trail.length + 1 ≤ k := by
        intro trail x hx
        refine h (b.frameAt s (hasSlot_of_child? hc) :: trail) x ?_
        rw [fill_cons, hx, ← hc, fill_frameAt_self]
      have hpos := hlonger [] c rfl
      rw [hvalue]
      have hflat := ih s c hc (k := k - 1) fun trail x hx => by
        have := hlonger trail x hx
        omega
      exact hflat.mono (by simp at hpos; omega)

end Block

/-! ## Documents -/

namespace Root

theorem proper_toJson (r : Root) : r.toJson.Proper :=
  ⟨trivial, (Flat.number (d := 0) _).proper, (Flat.number (d := 0) _).proper, r.block.proper_toJson,
    trivial⟩

theorem depth_toJson (r : Root) : r.toJson.depth = r.block.toJson.depth + 1 := by
  have hnumber : ∀ x, (Json.number x).depth = 0 :=
    fun x => Nat.le_zero.mp (Flat.number (d := 0) x).depth_le
  simp [toJson, Json.depth, Json.depthFields, hnumber]

end Root

namespace Test

/-- The document that a test is saved as. -/
def saved (t : Test) : Json :=
  (Document.ofTest t).toJson

/-- The file that a test is saved in. -/
def file (t : Test) (path : String) : File :=
  ⟨path, some t.saved.compact.toUTF8⟩

theorem proper_saved (t : Test) : t.saved.Proper :=
  ⟨(Flat.uint32 (d := 0) _).proper, t.library.proper_schema,
    Json.properItems_iff.mpr (List.forall_mem_map.mpr fun r _ => r.proper_toJson), trivial⟩

theorem depth_saved (t : Test) : t.saved.depth =
    max t.library.schema.depth (Json.depthItems (t.roots.map Root.toJson) + 1) + 1 := by
  simp [saved, Document.ofTest, Document.toJson, Json.depth, Json.depthFields]

/-- How many brackets are open at the innermost place of the document. -/
def nesting (t : Test) : Nat :=
  t.saved.depth

/-- The brackets of the document are the bracket of the list of roots, three more around it and
those of the blocks. -/
theorem add_four_le_nesting {t : Test} {r : Root} (hr : r ∈ t.roots) {trail : List Block.Frame}
    {b : Block} (h : Block.fill trail (some b) = some r.block) : trail.length + 4 ≤ t.nesting := by
  have hblock := Block.depth_fill h
  have hitems := Json.depthItems_le_iff.mp (Nat.le_refl (Json.depthItems (t.roots.map Root.toJson)))
    r.toJson (List.mem_map_of_mem hr)
  have hpos : 0 < b.toJson.depth := by
    obtain ⟨fields, hb, -⟩ := b.exists_flat_fields
    rw [hb]
    exact Nat.succ_pos _
  rw [r.depth_toJson] at hitems
  rw [nesting, depth_saved]
  omega

theorem nesting_le {t : Test} {k : Nat}
    (h : ∀ r ∈ t.roots, ∀ trail b, Block.fill trail (some b) = some r.block → trail.length ≤ k) :
    t.nesting ≤ max (t.library.schema.depth + 1) (k + 7) := by
  have hitems : Json.depthItems (t.roots.map Root.toJson) ≤ k + 5 := by
    rw [Json.depthItems_le_iff, List.forall_mem_map]
    intro r hr
    rw [r.depth_toJson]
    exact Nat.succ_le_succ (Block.flat_toJson (h r hr)).depth_le
  rw [nesting, depth_saved]
  omega

/-- A saved test is loaded again exactly if its document nests at most as deep as the reader goes.
A block at the end of `n` slots is `n + 4` brackets deep or more, so no test with a chain of 125
steps can be loaded. -/
theorem load_saved {path : String} {t : Test} (hpath : Format.ofPath path = .json)
    (hfinite : t.Finite) (hreads : ∀ x ∈ t.saved.floats, Json.ReadsBack x) :
    (Test.load (t.file path) =
        if t.nesting ≤ Json.maxDepth then .ok t else .error (.malformed .json path)) ∧
      (∀ r ∈ t.roots, ∀ trail b, Block.fill trail (some b) = some r.block →
        trail.length + 4 ≤ t.nesting) ∧
      ∀ k, (∀ r ∈ t.roots, ∀ trail b, Block.fill trail (some b) = some r.block →
        trail.length ≤ k) → t.nesting ≤ max (t.library.schema.depth + 1) (k + 7) := by
  refine ⟨?_, fun r hr trail b h => add_four_le_nesting hr h, fun k h => nesting_le h⟩
  have htext : Json.ofText? t.saved.compact =
      if t.nesting ≤ Json.maxDepth then some t.saved else none :=
    Json.ofText?_compact t.proper_saved hreads
  have hdocument : Document.ofJson? t.saved = some (Document.ofTest t) :=
    Document.read_write (d := Document.ofTest t) hfinite
  rw [Test.load, File.load, file, File.text?_toUTF8]
  simp only [hpath, htext]
  by_cases hdepth : t.nesting ≤ Json.maxDepth
  · rw [if_pos hdepth, if_pos hdepth, Option.bind_some, hdocument]
    show (Document.ofTest t).toTest.mapError (LoadError.unsupported path) = _
    rw [Document.toTest_ofTest]
    rfl
  · rw [if_neg hdepth, if_neg hdepth]
    rfl

/-- A scenario that waits for a second and a half. -/
def waiting : Test :=
  ⟨Library.empty, [⟨⟨200, 0⟩, .scenario "s" "Waiting" none (some (.sleep "p" 1.5 none))⟩]⟩

theorem load_saved_waiting :
    Format.ofPath "waiting.json" = .json ∧ waiting.Finite ∧
      (∀ x ∈ waiting.saved.floats, Json.ReadsBack x) ∧
        Test.load (waiting.file "waiting.json") = .ok waiting := by
  have hpath : Format.ofPath "waiting.json" = .json := by decide
  have hfinite : waiting.Finite := by
    intro r hr
    rw [waiting, List.mem_singleton] at hr
    subst hr
    refine ⟨rfl, rfl, Block.finite_of_child? trivial fun slot c hc => ?_⟩
    cases slot <;> cases hc
    refine Block.finite_of_child? rfl fun slot c hc => ?_
    cases slot <;> cases hc
  have hfloats : waiting.saved.floats = [200, 0, 1.5] := rfl
  have hreads : ∀ x ∈ waiting.saved.floats, Json.ReadsBack x := by
    rw [hfloats, List.forall_mem_cons, List.forall_mem_cons, List.forall_mem_singleton]
    exact ⟨rfl, rfl, rfl⟩
  exact ⟨hpath, hfinite, hreads,
    (load_saved hpath hfinite hreads).1.trans (if_pos (by decide))⟩

end Test
end LoadTest
