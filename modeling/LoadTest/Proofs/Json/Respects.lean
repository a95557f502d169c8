import LoadTest.Library
import LoadTest.Proofs.Json.Variant

/-!
Reading fields, lists, maps and schemas does not tell variants apart.
-/

namespace LoadTest

namespace Dict

variable {α : Type}

theorem enter_comm {k k' : String} (h : k ≠ k') (v v' : α) (l : List (String × α)) :
    enter k v (enter k' v' l) = enter k' v' (enter k v l) := by
  induction l with
  | nil =>
    simp only [enter]
    grind [lt_of_not_lt_of_ne, String.lt_asymm]
  | cons e l ih =>
    grind [enter, lt_of_not_lt_of_ne, String.lt_asymm, String.lt_trans]

/-- Entries under different keys may be read in any order. -/
theorem ofList_perm {l l' : List (String × α)} (h : l.Perm l') (hkeys : (l.map Prod.fst).Nodup) :
    ofList l = ofList l' := by
  refine h.foldl_eq' ?_ empty
  intro x hx y hy d
  by_cases hxy : x.1 = y.1
  · rw [List.inj_on_of_nodup_map hkeys hx hy hxy]
  · exact ext (enter_comm (Ne.symm hxy) y.2 x.2 d.entries)

end Dict

namespace Json

open Record (valuesOf required withDefault)

variable {β : Type} {s : Shape} {read : Json → Option β}

/-- A reading that does not tell variants apart. -/
def Respects (s : Shape) (read : Json → Option β) : Prop :=
  ∀ v w, Variant s v w → read v = read w

theorem Respects.same (h : Respects s read) {v w : Json} (hsame : Same s v w) : read v = read w := by
  induction hsame with
  | rel v w hvariant => exact h v w hvariant
  | refl v => rfl
  | symm v w _ ih => exact ih.symm
  | trans u v w _ _ ih ih' => exact ih.trans ih'

/-- Objects without known fields differ in the order of their fields only. -/
theorem respects_scalar (h : ∀ fields, read (.obj fields) = none) : Respects .scalar read := by
  intro v w hvariant
  cases hvariant with
  | order => rw [h, h]
  | unknown record => cases record
  | null known => cases known
  | field known => cases known

/-! ## Fields -/

/-- What is found of a field: `missing` if there is none, and nothing if there are several. -/
def pick (missing : Option β) (read : Json → Option β) : List Json → Option β
  | [] => missing
  | [v] => read v
  | _ => none

theorem required_eq_pick (read : Json → Option β) (name : String) (fields : List (String × Json)) :
    required read name fields = pick none read (valuesOf name fields) := by
  unfold required
  rcases valuesOf name fields with _ | ⟨v, _ | ⟨v', vs⟩⟩ <;> rfl

theorem withDefault_eq_pick (default : β) (read : Json → Option β) (name : String)
    (fields : List (String × Json)) :
    withDefault default read name fields = pick (some default) read (valuesOf name fields) := by
  unfold withDefault
  rcases valuesOf name fields with _ | ⟨v, _ | ⟨v', vs⟩⟩ <;> rfl

theorem Field.Agree.pick_eq {f : Field} {vs ws : List Json} (h : f.Agree vs ws)
    {missing : Option β} (hnull : f.optional = true → missing = read .null)
    (hread : ∀ v ∈ vs, ∀ w, Variant f.shape v w → read v = read w) :
    pick missing read vs = pick missing read ws := by
  cases h with
  | refl => rfl
  | null optional => exact hnull optional
  | @value l r v w inner =>
    cases l with
    | nil =>
      cases r with
      | nil => exact hread v List.mem_cons_self w inner
      | cons x r => rfl
    | cons x l =>
      cases l with
      | nil => rfl
      | cons y l => rfl

section Congruence

variable {name : String} {fields fields' : List (String × Json)}

theorem required_congr (hread : ∀ v ∈ valuesOf name fields, ∀ w, Variant s v w → read v = read w)
    (h : Field.Agree ⟨name, s, false⟩ (valuesOf name fields) (valuesOf name fields')) :
    required read name fields = required read name fields' := by
  rw [required_eq_pick, required_eq_pick]
  exact h.pick_eq nofun hread

theorem withDefault_congr {default : β}
    (hread : ∀ v ∈ valuesOf name fields, ∀ w, Variant s v w → read v = read w)
    (h : Field.Agree ⟨name, s, false⟩ (valuesOf name fields) (valuesOf name fields')) :
    withDefault default read name fields = withDefault default read name fields' := by
  rw [withDefault_eq_pick, withDefault_eq_pick]
  exact h.pick_eq nofun hread

theorem variant_null {v w : Json} (h : Variant s v w) : v ≠ .null ∧ w ≠ .null := by
  cases h <;> exact ⟨nofun, nofun⟩

theorem optional_congr (hread : ∀ v ∈ valuesOf name fields, ∀ w, Variant s v w → read v = read w)
    (h : Field.Agree ⟨name, s, true⟩ (valuesOf name fields) (valuesOf name fields')) :
    optional read name fields = optional read name fields' := by
  rw [optional, optional, withDefault_eq_pick, withDefault_eq_pick]
  refine h.pick_eq (fun _ => rfl) fun v hv w hvariant => ?_
  have horNull : ∀ {u : Json}, u ≠ .null → orNull read u = (read u).map some := by
    intro u hu
    cases u <;> first | rfl | exact absurd rfl hu
  obtain ⟨hnv, hnw⟩ := variant_null hvariant
  rw [horNull hnv, horNull hnw, hread v hv w hvariant]

theorem Respects.required (h : Respects s read)
    (hagree : Field.Agree ⟨name, s, false⟩ (valuesOf name fields) (valuesOf name fields')) :
    required read name fields = required read name fields' :=
  required_congr (fun v _ w => h v w) hagree

theorem Respects.withDefault (h : Respects s read) {default : β}
    (hagree : Field.Agree ⟨name, s, false⟩ (valuesOf name fields) (valuesOf name fields')) :
    withDefault default read name fields = withDefault default read name fields' :=
  withDefault_congr (fun v _ w => h v w) hagree

theorem Respects.optional (h : Respects s read)
    (hagree : Field.Agree ⟨name, s, true⟩ (valuesOf name fields) (valuesOf name fields')) :
    optional read name fields = optional read name fields' :=
  optional_congr (fun v _ w => h v w) hagree

end Congruence

/-! ## Scalars -/

theorem respects_str : Respects .scalar str? := respects_scalar fun _ => rfl

theorem respects_bool : Respects .scalar bool? := respects_scalar fun _ => rfl

theorem respects_float : Respects .scalar float? := respects_scalar fun _ => rfl

theorem respects_uint16 : Respects .scalar uint16? := respects_scalar fun _ => rfl

theorem respects_uint32 : Respects .scalar uint32? := respects_scalar fun _ => rfl

theorem respects_uint64 : Respects .scalar uint64? := respects_scalar fun _ => rfl

/-! ## Lists -/

theorem listOf?_congr {v w : Json} (h : Variant (.list s) v w)
    (hread : ∀ items, v = .arr items → ∀ x ∈ items, ∀ y, Variant s x y → read x = read y) :
    listOf? read v = listOf? read w := by
  cases h with
  | order => rfl
  | unknown record => cases record
  | null known => cases known
  | field known => cases known
  | @item _ l r x y inner =>
    have hxy := hread _ rfl x (by simp) y inner
    show (l ++ x :: r).mapM read = (l ++ y :: r).mapM read
    rw [List.mapM_append, List.mapM_append, List.mapM_cons, List.mapM_cons, hxy]

theorem respects_list (h : Respects s read) : Respects (.list s) (listOf? read) :=
  fun _ _ hvariant => listOf?_congr hvariant fun _ _ x _ y => h x y

/-! ## Maps -/

/-- Entries in another order are read in another order. -/
theorem mapM_perm {α γ : Type} {f : α → Option γ} {l l' : List α} (h : l.Perm l') {r : List γ}
    (hr : l.mapM f = some r) : ∃ r', l'.mapM f = some r' ∧ r.Perm r' := by
  induction h generalizing r with
  | nil => exact ⟨r, hr, .refl r⟩
  | cons x h ih =>
    simp only [List.mapM_cons, Option.bind_eq_bind, Option.bind_eq_some_iff, Option.pure_def,
      Option.some.injEq] at hr ⊢
    obtain ⟨y, hy, ys, hys, rfl⟩ := hr
    obtain ⟨ys', hys', hperm⟩ := ih hys
    exact ⟨y :: ys', ⟨y, hy, ys', hys', rfl⟩, hperm.cons y⟩
  | swap x x' l =>
    simp only [List.mapM_cons, Option.bind_eq_bind, Option.bind_eq_some_iff, Option.pure_def,
      Option.some.injEq] at hr ⊢
    obtain ⟨y', hy', _, ⟨y, hy, ys, hys, rfl⟩, rfl⟩ := hr
    exact ⟨y :: y' :: ys, ⟨y, hy, _, ⟨y', hy', ys, hys, rfl⟩, rfl⟩, .swap ..⟩
  | trans h h' ih ih' =>
    obtain ⟨r', hr', hperm⟩ := ih hr
    obtain ⟨r'', hr'', hperm'⟩ := ih' hr'
    exact ⟨r'', hr'', hperm.trans hperm'⟩

theorem map_fst_of_mapM {γ : Type} {l : List (String × Json)} {f : Json → Option γ}
    {r : List (String × γ)} (h : (l.mapM fun e => (f e.2).map (e.1, ·)) = some r) :
    r.map Prod.fst = l.map Prod.fst := by
  induction l generalizing r with
  | nil =>
    cases h
    rfl
  | cons e l ih =>
    simp only [List.mapM_cons, Option.bind_eq_bind, Option.bind_eq_some_iff, Option.pure_def,
      Option.some.injEq, Option.map_eq_some_iff] at h
    obtain ⟨_, ⟨y, -, rfl⟩, ys, hys, rfl⟩ := h
    rw [List.map_cons, List.map_cons, ih hys]

theorem respects_dict (h : Respects s read) : Respects (.dict s) (dictOf? read) := by
  intro v w hvariant
  let g := fun e : String × Json => (read e.2).map (e.1, ·)
  cases hvariant with
  | @order _ fields fields' names perm =>
    show (do return Dict.ofList (← fields.mapM g)) = (do return Dict.ofList (← fields'.mapM g))
    cases hr : fields.mapM g with
    | some r =>
      obtain ⟨r', hr', hperm⟩ := mapM_perm perm hr
      have hkeys : (r.map Prod.fst).Nodup := by rwa [map_fst_of_mapM hr]
      rw [hr']
      exact congrArg some (Dict.ofList_perm hperm hkeys)
    | none =>
      cases hr' : fields'.mapM g with
      | some r' =>
        obtain ⟨r, hsome, -⟩ := mapM_perm perm.symm hr'
        rw [hr] at hsome
        cases hsome
      | none => rfl
  | unknown record => cases record
  | null known => cases known
  | field known => cases known
  | @entry _ l r k x y inner =>
    have hxy : g (k, x) = g (k, y) := congrArg (Option.map (k, ·)) (h x y inner)
    show (do return Dict.ofList (← (l ++ (k, x) :: r).mapM g)) =
      (do return Dict.ofList (← (l ++ (k, y) :: r).mapM g))
    rw [List.mapM_append, List.mapM_append, List.mapM_cons, List.mapM_cons, hxy]

/-! ## Schemas -/

theorem canonical_variant {v w : Json} (h : Variant s v w) (hs : s = .schema) :
    v.canonical = w.canonical := by
  induction h with
  | @order s fields fields' names perm =>
    rw [canonical, canonical, canonicalFields_eq_map, canonicalFields_eq_map]
    have hkeys : ((fields.map fun e => (e.1, e.2.canonical)).map Prod.fst).Nodup := by
      rwa [List.map_map]
    rw [Dict.ofList_perm (perm.map _) hkeys]
  | unknown record =>
    subst hs
    cases record
  | null known =>
    subst hs
    cases known
  | field known =>
    subst hs
    cases known
  | item => cases hs
  | entry => cases hs
  | schemaItem inner ih =>
    rw [canonical, canonical, canonicalItems_eq_map, canonicalItems_eq_map, List.map_append,
      List.map_append, List.map_cons, List.map_cons, ih rfl]
  | schemaField inner ih =>
    rw [canonical, canonical, canonicalFields_eq_map, canonicalFields_eq_map, List.map_append,
      List.map_append, List.map_cons, List.map_cons, ih rfl]

theorem respects_schema : Respects .schema fun j => some (Library.ofJson j) :=
  fun _ _ h => congrArg some (Library.ext (canonical_variant h rfl))

end Json
end LoadTest
