import LoadTest.Proofs.Script.Query
import LoadTest.Proofs.Script.Substitution
import LoadTest.Proofs.Script.Lines
import LoadTest.Proofs.Text.Bytes

/-!
What an encoded text is made of, and that nothing is lost in it.

A strict reader, which takes nothing but unreserved characters and bytes in two digits, gives back
the bytes that were encoded.  None of the characters that are left is one of those that separate
the parts of a query, so the query of a request is cut where its items and their names end, and
reading it gives the names and values that were written (`itemsOf_queryText`).
-/

namespace LoadTest
namespace Text

/-! ## Encoded texts -/

def unreserved : String :=
  "ABCDEFGHIJKLMNOPQRSTUVWXYZabcdefghijklmnopqrstuvwxyz0123456789-._~"

def upperDigits : String := "0123456789ABCDEF"

/-- Unreserved characters, bytes in two digits behind a `%`, and separators. -/
inductive Encoded (separators : List Char) : List Char → Prop
  | nil : Encoded separators []
  | plain {c : Char} {s : List Char} : c ∈ unreserved.toList → Encoded separators s →
      Encoded separators (c :: s)
  | byte {a b : Char} {s : List Char} : a ∈ upperDigits.toList → b ∈ upperDigits.toList →
      Encoded separators s → Encoded separators ('%' :: a :: b :: s)
  | separator {c : Char} {s : List Char} : c ∈ separators → Encoded separators s →
      Encoded separators (c :: s)

namespace Encoded

variable {separators : List Char}

theorem append {s t : List Char} (hs : Encoded separators s) (ht : Encoded separators t) :
    Encoded separators (s ++ t) := by
  induction hs with
  | nil => exact ht
  | plain hc _ ih => exact ih.plain hc
  | byte ha hb _ ih => exact ih.byte ha hb
  | separator hc _ ih => exact ih.separator hc

/-- What is left in an encoded text. -/
theorem mem {s : List Char} (h : Encoded separators s) {c : Char} (hc : c ∈ s) :
    c ∈ unreserved.toList ∨ c = '%' ∨ c ∈ separators := by
  have hdigits : upperDigits.toList ⊆ unreserved.toList := by decide +kernel
  induction h with
  | nil => cases hc
  | plain hplain _ ih =>
    rcases List.mem_cons.mp hc with rfl | hc
    · exact .inl hplain
    · exact ih hc
  | byte ha hb _ ih =>
    rcases List.mem_cons.mp hc with rfl | hc
    · exact .inr (.inl rfl)
    rcases List.mem_cons.mp hc with rfl | hc
    · exact .inl (hdigits ha)
    rcases List.mem_cons.mp hc with rfl | hc
    · exact .inl (hdigits hb)
    · exact ih hc
  | separator hseparator _ ih =>
    rcases List.mem_cons.mp hc with rfl | hc
    · exact .inr (.inr hseparator)
    · exact ih hc

theorem intercalate {d : Char} (hd : d ∈ separators) {items : List (List Char)}
    (h : ∀ i ∈ items, Encoded separators i) : Encoded separators ([d].intercalate items) := by
  induction items with
  | nil => exact .nil
  | cons i items ih =>
    obtain ⟨hi, hitems⟩ := List.forall_mem_cons.mp h
    cases items with
    | nil => simpa using hi
    | cons j items =>
      rw [List.intercalate_cons_cons]
      exact (hi.append (.separator hd .nil)).append (ih hitems)

end Encoded

theorem mem_unreserved {c : Char} (h : isUnreserved c = true) : c ∈ unreserved.toList := by
  have hascii : c.toNat < 128 := by
    simp only [isUnreserved, Bool.or_eq_true, decide_eq_true_eq] at h
    rcases h with (((h | rfl) | rfl) | rfl) | rfl
    · exact Script.toNat_lt_of_isNameChar (Bool.or_eq_true_iff.mpr (.inl h))
    all_goals decide
  exact ascii_forall (P := fun c => isUnreserved c = true → c ∈ unreserved.toList)
    (by decide +kernel) c hascii h

theorem encoded_percentByte {separators : List Char} (b : UInt8) :
    Encoded separators (percentByte b) := by
  have hdigit : ∀ n < 16, hexDigit n ∈ upperDigits.toList := by decide +kernel
  have hlt := b.toNat_lt
  rw [percentByte]
  split
  · next hplain => exact .plain (mem_unreserved hplain) .nil
  · exact .byte (hdigit _ (by omega)) (hdigit _ (by omega)) .nil

theorem encoded_percentEncode {separators : List Char} (s : List Char) :
    Encoded separators (percentEncode s) := by
  rw [percentEncode]
  induction utf8 s with
  | nil => exact .nil
  | cons b bytes ih => exact (encoded_percentByte b).append ih

theorem encoded_itemText {separators : List Char} (h : '=' ∈ separators) (name value : List Char) :
    Encoded separators (itemText name value) :=
  (encoded_percentEncode name).append (.separator h (encoded_percentEncode value))

/-! ## Reading strictly -/

/-- The text that was encoded. -/
def decode? (s : List Char) : Option String :=
  (percentDecode? s).bind ofBytes?

theorem percentDecode?_cons {c : Char} (h : isUnreserved c = true) (s : List Char) :
    percentDecode? (c :: s) = (percentDecode? s).map (UInt8.ofNat c.toNat :: ·) := by
  rw [percentDecode?, if_pos h]
  · cases percentDecode? s <;> rfl
  · rintro a b r rfl
    cases h

theorem percentDecode?_digits {a b : Char} {high low : Nat} (ha : hexValue? a = some high)
    (hb : hexValue? b = some low) (s : List Char) : percentDecode? ('%' :: a :: b :: s) =
      (percentDecode? s).map (UInt8.ofNat (high * 16 + low) :: ·) := by
  rw [percentDecode?, ha, hb]
  cases percentDecode? s <;> rfl

theorem percentDecode?_percentByte (b : UInt8) (s : List Char) :
    percentDecode? (percentByte b ++ s) = (percentDecode? s).map (b :: ·) := by
  have hvalue : ∀ n < 16, hexValue? (hexDigit n) = some n := by decide
  have hlt := b.toNat_lt
  rw [percentByte]
  split
  · next hplain =>
    have hchar : ∀ n < 256, (Char.ofNat n).toNat = n := by decide +kernel
    rw [List.singleton_append, percentDecode?_cons hplain, hchar _ hlt, UInt8.ofNat_toNat]
  · have hhigh := hvalue (b.toNat / 16) (by omega)
    have hlow := hvalue (b.toNat % 16) (by omega)
    rw [List.cons_append, List.cons_append, List.cons_append, List.nil_append,
      percentDecode?_digits hhigh hlow, Nat.div_add_mod', UInt8.ofNat_toNat]

theorem percentDecode?_percentEncode (s : List Char) :
    percentDecode? (percentEncode s) = some (utf8 s) := by
  rw [percentEncode]
  induction utf8 s with
  | nil => rfl
  | cons b bytes ih => rw [List.flatMap_cons, percentDecode?_percentByte, ih, Option.map_some]

theorem decode?_percentEncode (s : String) : decode? (percentEncode s.toList) = some s := by
  rw [decode?, percentDecode?_percentEncode, Option.bind_some, ofBytes?_utf8]

theorem percentEncode_injective : Function.Injective percentEncode := by
  intro s t h
  have hread := percentDecode?_percentEncode s
  rw [h, percentDecode?_percentEncode] at hread
  exact (utf8_injective (Option.some.inj hread)).symm

/-! ## Queries -/

/-- The items of a query, each cut at every `=` and decoded. -/
def itemsOf (query : List Char) : List (List (Option String)) :=
  (query.splitOn '&').map fun item => (item.splitOn '=').map decode?

theorem splitOn_itemText (name value : List Char) :
    (itemText name value).splitOn '=' = [percentEncode name, percentEncode value] := by
  have hjoined : itemText name value =
      ['='].intercalate [percentEncode name, percentEncode value] := by
    simp [itemText, List.intercalate_cons_cons]
  rw [hjoined]
  refine List.splitOn_intercalate '=' ?_ (List.cons_ne_nil _ _)
  simp [not_mem_percentEncode (c := '=') rfl (by decide)]

end Text

namespace Script

open Text

theorem encoded_queryText (e : Environment) (ps : List Plan.Pair) :
    Encoded ['&', '='] (queryText e ps) := by
  rw [queryText_eq]
  refine .intercalate List.mem_cons_self fun i hi => ?_
  obtain ⟨p, -, rfl⟩ := List.mem_map.mp hi
  exact encoded_itemText (List.mem_cons_of_mem _ List.mem_cons_self) _ _

theorem itemsOf_queryText_cons (e : Environment) (p : Plan.Pair) (ps : List Plan.Pair) :
    itemsOf (queryText e (p :: ps)) =
      (p :: ps).map fun p => [some p.name, some (e.substitute p.value)] := by
  rw [itemsOf, queryText_eq, List.splitOn_intercalate _ (not_mem_parameterItem e (p :: ps))
    (by simp), List.map_map]
  refine List.map_congr_left fun q _ => ?_
  show ((parameterItem e q).splitOn '=').map decode? = _
  rw [parameterItem, ← e.toList_substitute, splitOn_itemText, List.map_cons, List.map_cons,
    List.map_nil, decode?_percentEncode, decode?_percentEncode]

/-- A query is made of unreserved characters, bytes in two upper-case digits and the separators `&`
and `=`.  Its items are the names of the parameters with their values, as these were substituted
or, in an environment without variables, as they are.  No two texts are encoded alike, and nothing
that could end an item, a query or a literal is left in an encoded text. -/
theorem itemsOf_queryText (p : Plan.Pair) (ps : List Plan.Pair) :
    (∀ e, Encoded ['&', '='] (queryText e (p :: ps)) ∧
      itemsOf (queryText e (p :: ps)) =
        (p :: ps).map fun p => [some p.name, some (e.substitute p.value)]) ∧
    itemsOf (queryText (.new "") (p :: ps)) =
      (p :: ps).map (fun p => [some p.name, some p.value]) ∧
    Function.Injective percentEncode ∧
    ∀ s, ∀ c ∈ percentEncode s, c ∉ "&=?#\"'`\\".toList ∧ 0x20 < c.toNat ∧ c.toNat < 0x7F := by
  refine ⟨fun e => ⟨encoded_queryText e (p :: ps), itemsOf_queryText_cons e p ps⟩, ?_,
    percentEncode_injective, fun s c hc => ?_⟩
  · simp only [itemsOf_queryText_cons, Environment.substitute_new]
  · have hleft : ∀ d ∈ '%' :: unreserved.toList,
        d ∉ "&=?#\"'`\\".toList ∧ 0x20 < d.toNat ∧ d.toNat < 0x7F := by
      have hall : (('%' :: unreserved.toList).all fun d =>
          !("&=?#\"'`\\".toList.contains d) && Nat.blt 0x20 d.toNat && Nat.blt d.toNat 0x7F) := by
        decide +kernel
      simpa [and_assoc] using hall
    have hencoded : Encoded [] (percentEncode s) := encoded_percentEncode s
    rcases hencoded.mem hc with hplain | rfl | hnone
    · exact hleft c (List.mem_cons_of_mem _ hplain)
    · exact hleft '%' List.mem_cons_self
    · cases hnone

end Script
end LoadTest
