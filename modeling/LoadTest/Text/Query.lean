import LoadTest.Json.Reader
import LoadTest.Text.Percent

/-!
Reading the query of a URL.

The query stands behind the first `?` and ends at the first `#`.  Its items are separated by `&`,
and each is a name and a value with `=` between them, both percent-encoded.
-/

namespace LoadTest
namespace Text

/-- The bytes that a percent-encoded text stands for.  A `%` without two digits stands for itself,
and so does every other character. -/
def percentBytes : List Char → List UInt8
  | [] => []
  | '%' :: a :: b :: s =>
    match Json.hexValue? a, Json.hexValue? b with
    | some high, some low => UInt8.ofNat (high * 16 + low) :: percentBytes s
    | _, _ => utf8 ['%'] ++ percentBytes (a :: b :: s)
  | c :: s => utf8 [c] ++ percentBytes s

/-- The query of a URL; nothing if the URL has no `?` before its fragment. -/
def query? (url : List Char) : Option (List Char) :=
  match (url.takeWhile (· ≠ '#')).dropWhile (· ≠ '?') with
  | [] => none
  | _ :: q => some q

/-- The name and the value of an item, decoded. -/
def itemPair (item : List Char) : List UInt8 × List UInt8 :=
  (percentBytes (item.takeWhile (· ≠ '=')), percentBytes ((item.dropWhile (· ≠ '=')).drop 1))

/-- The pairs that a URL carries in its query, in order. -/
def queryPairs (url : List Char) : List (List UInt8 × List UInt8) :=
  match query? url with
  | none => []
  | some q => (q.splitOn '&').map itemPair

/-! ## Cutting at a character -/

theorem forall_ne_of_not_mem {c : Char} {a : List Char} (h : c ∉ a) :
    ∀ d ∈ a, decide (d ≠ c) = true :=
  fun _ hd => decide_eq_true fun heq => h (heq ▸ hd)

theorem takeWhile_ne_append_cons {c : Char} {a : List Char} (h : c ∉ a) (b : List Char) :
    (a ++ c :: b).takeWhile (· ≠ c) = a := by
  rw [List.takeWhile_append_of_pos (forall_ne_of_not_mem h),
    List.takeWhile_cons_of_neg (by simp), List.append_nil]

theorem dropWhile_ne_append_cons {c : Char} {a : List Char} (h : c ∉ a) (b : List Char) :
    (a ++ c :: b).dropWhile (· ≠ c) = c :: b := by
  rw [List.dropWhile_append_of_pos (forall_ne_of_not_mem h), List.dropWhile_cons_of_neg (by simp)]

end Text
end LoadTest
