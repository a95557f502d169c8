import LoadTest.Script
import LoadTest.Text.Query
import Mathlib.Data.List.Infix
import Mathlib.Data.List.TakeWhile

/-!
The query of a request, as it is read off the URL that is sent.

The parameters are encoded, so each is one item, and reading an item gives the pair that was
written.  Whether the items are in the query depends on the URL in front of them: they are not if
that has a fragment, and if it ends with a `?` behind another `?`, then the first is not an item of
its own.
-/

namespace LoadTest
namespace Text

/-! ## Decoding what was encoded -/

theorem percentBytes_cons_of_ne {c : Char} (h : c ≠ '%') (s : List Char) :
    percentBytes (c :: s) = utf8 [c] ++ percentBytes s := by
  rw [percentBytes]
  rintro a b r rfl
  exact absurd rfl h

theorem percentBytes_digits {a b : Char} {high low : Nat} (ha : Json.hexValue? a = some high)
    (hb : Json.hexValue? b = some low) (s : List Char) :
    percentBytes ('%' :: a :: b :: s) = UInt8.ofNat (high * 16 + low) :: percentBytes s := by
  rw [percentBytes, ha, hb]

/-- A `%` that no two digits follow stands for itself. -/
theorem percentBytes_percent {s : List Char} (h : ∀ a b r high low, s = a :: b :: r →
    Json.hexValue? a = some high → Json.hexValue? b = some low → False) :
    percentBytes ('%' :: s) = utf8 ['%'] ++ percentBytes s := by
  match s with
  | [] => rfl
  | [a] => rfl
  | a :: b :: r =>
    rw [percentBytes]
    split
    · next high low ha hb => exact absurd hb (h a b r high low rfl ha)
    · rfl

/-- A character that is no digit ends whatever a `%` before it has started. -/
theorem percentBytes_append {c : Char} (hdigit : Json.hexValue? c = none) (hc : c ≠ '%')
    (x y : List Char) :
    percentBytes (x ++ c :: y) = percentBytes x ++ (utf8 [c] ++ percentBytes y) := by
  fun_induction percentBytes x with
  | case1 => rw [List.nil_append, List.nil_append, percentBytes_cons_of_ne hc]
  | case2 a b s high low hb ha ih =>
    rw [List.cons_append, List.cons_append, List.cons_append, percentBytes_digits ha hb, ih,
      List.cons_append]
  | case3 a b s hno ih =>
    rw [List.cons_append, percentBytes_percent, ih, List.append_assoc]
    rintro a' b' r high low heq ha hb
    cases heq
    exact hno high low ha hb
  | case4 d s hshort ih =>
    rw [List.cons_append]
    by_cases hd : d = '%'
    · subst hd
      rw [percentBytes_percent, ih, List.append_assoc]
      -- At most one character stands between the `%` and `c`, which is no digit.
      rintro a b r high low heq ha hb
      match s with
      | [] =>
        cases heq
        rw [hdigit] at ha
        cases ha
      | [_] =>
        cases heq
        rw [hdigit] at hb
        cases hb
      | _ :: _ :: _ => exact hshort _ _ _ rfl rfl
    · rw [percentBytes_cons_of_ne hd, ih, List.append_assoc]

theorem hexValue?_hexDigit : ∀ n < 16, Json.hexValue? (hexDigit n) = some n := by
  decide

/-- A byte is read back from what it was written as. -/
theorem percentBytes_percentByte (b : UInt8) (s : List Char) :
    percentBytes (percentByte b ++ s) = b :: percentBytes s := by
  rw [percentByte]
  split
  · next hplain =>
    have hbytes : ∀ n < 256, isUnreserved (Char.ofNat n) = true →
        Char.ofNat n ≠ '%' ∧ utf8 [Char.ofNat n] = [UInt8.ofNat n] := by
      decide +kernel
    obtain ⟨hne, hutf8⟩ := hbytes b.toNat b.toNat_lt hplain
    rw [List.singleton_append, percentBytes_cons_of_ne hne, hutf8, UInt8.ofNat_toNat]
    rfl
  · have hhigh := hexValue?_hexDigit (b.toNat / 16) (by have := b.toNat_lt; omega)
    have hlow := hexValue?_hexDigit (b.toNat % 16) (Nat.mod_lt _ (by decide))
    rw [List.cons_append, List.cons_append, List.cons_append, List.nil_append,
      percentBytes_digits hhigh hlow, Nat.div_add_mod', UInt8.ofNat_toNat]

theorem percentBytes_percentEncode (s rest : List Char) :
    percentBytes (percentEncode s ++ rest) = utf8 s ++ percentBytes rest := by
  rw [percentEncode]
  induction utf8 s with
  | nil => rfl
  | cons b bs ih => rw [List.flatMap_cons, List.append_assoc, percentBytes_percentByte, ih,
      List.cons_append]

/-- Every reserved character but `%` is encoded. -/
theorem not_mem_percentEncode {c : Char} (hc : isUnreserved c = false) (hne : c ≠ '%')
    (s : List Char) : c ∉ percentEncode s := by
  have hdigit : ∀ n < 16, isUnreserved (hexDigit n) = true := by decide
  intro hmem
  obtain ⟨b, -, hb⟩ := List.mem_flatMap.mp hmem
  rw [percentByte] at hb
  split at hb
  · next hplain =>
    rw [List.mem_singleton.mp hb, hplain] at hc
    cases hc
  · have hlt := b.toNat_lt
    have hhigh := hdigit (b.toNat / 16) (by omega)
    have hlow := hdigit (b.toNat % 16) (by omega)
    simp only [List.mem_cons, List.not_mem_nil, or_false] at hb
    rcases hb with rfl | rfl | rfl
    · exact hne rfl
    · rw [hhigh] at hc
      cases hc
    · rw [hlow] at hc
      cases hc

/-! ## Items -/

/-- An item as it is written into a query. -/
def itemText (name value : List Char) : List Char :=
  percentEncode name ++ '=' :: percentEncode value

theorem not_mem_itemText {c : Char} (hc : isUnreserved c = false) (hpercent : c ≠ '%')
    (hequals : c ≠ '=') (name value : List Char) : c ∉ itemText name value := by
  rw [itemText, List.mem_append, List.mem_cons, not_or, not_or]
  exact ⟨not_mem_percentEncode hc hpercent name, hequals, not_mem_percentEncode hc hpercent value⟩

theorem itemPair_of_not_mem {name : List Char} (h : '=' ∉ name) (value : List Char) :
    itemPair (name ++ '=' :: value) = (percentBytes name, percentBytes value) := by
  rw [itemPair, takeWhile_ne_append_cons h, dropWhile_ne_append_cons h, List.drop_succ_cons,
    List.drop_zero]

theorem percentBytes_encoded (s : List Char) : percentBytes (percentEncode s) = utf8 s := by
  have h := percentBytes_percentEncode s []
  rwa [List.append_nil, percentBytes, List.append_nil] at h

/-- An item is read as what was written. -/
theorem itemPair_itemText (name value : List Char) :
    itemPair (itemText name value) = (utf8 name, utf8 value) := by
  rw [itemText, itemPair_of_not_mem (not_mem_percentEncode rfl (by decide) name),
    percentBytes_encoded, percentBytes_encoded]

/-- A `?` in front of an encoded text is read as a byte more. -/
theorem percentBytes_behind_ne (l s : List Char) :
    percentBytes (l ++ '?' :: percentEncode s) ≠ utf8 s := by
  intro heq
  have hlength := congrArg List.length heq
  rw [percentBytes_append rfl (by decide), percentBytes_encoded, List.length_append,
    List.length_append] at hlength
  have hmark : (utf8 ['?']).length = 1 := rfl
  omega

/-- Behind a `?`, an item is read as something longer. -/
theorem itemPair_behind_ne (l name value : List Char) :
    itemPair (l ++ '?' :: itemText name value) ≠ (utf8 name, utf8 value) := by
  intro heq
  by_cases hl : '=' ∈ l
  · obtain ⟨a, b, rfl, ha⟩ := List.eq_append_cons_of_mem hl
    have hitem : (a ++ '=' :: b) ++ '?' :: itemText name value =
        a ++ '=' :: ((b ++ '?' :: percentEncode name ++ ['=']) ++ percentEncode value) := by
      simp [itemText]
    have hvalue : percentBytes ((b ++ '?' :: percentEncode name ++ ['=']) ++ percentEncode value) =
        percentBytes (b ++ '?' :: percentEncode name) ++ (utf8 ['='] ++ utf8 value) := by
      rw [List.append_assoc, List.singleton_append, percentBytes_append rfl (by decide),
        percentBytes_encoded]
    rw [hitem, itemPair_of_not_mem ha, Prod.mk.injEq, hvalue] at heq
    have hlength := congrArg List.length heq.2
    rw [List.length_append, List.length_append] at hlength
    have hmark : (utf8 ['=']).length = 1 := rfl
    omega
  · have hname : '=' ∉ l ++ '?' :: percentEncode name := by
      rw [List.mem_append, List.mem_cons, not_or, not_or]
      exact ⟨hl, by decide, not_mem_percentEncode rfl (by decide) name⟩
    rw [itemText, ← List.cons_append, ← List.append_assoc, itemPair_of_not_mem hname,
      Prod.mk.injEq] at heq
    exact percentBytes_behind_ne l name heq.1

/-! ## Queries -/

/-- The query ends at the first `#`, so nothing behind that changes it. -/
theorem query?_append_of_mem {url : List Char} (h : '#' ∈ url) (s : List Char) :
    query? (url ++ s) = query? url := by
  obtain ⟨a, b, rfl, ha⟩ := List.eq_append_cons_of_mem h
  rw [List.append_assoc, List.cons_append, query?, query?, takeWhile_ne_append_cons ha,
    takeWhile_ne_append_cons ha]

theorem query?_of_not_mem {before q : List Char} (hfragment : '#' ∉ before ++ '?' :: q)
    (hfirst : '?' ∉ before) : query? (before ++ '?' :: q) = some q := by
  rw [query?, List.takeWhile_eq_self_iff.mpr (forall_ne_of_not_mem hfragment),
    dropWhile_ne_append_cons hfirst]

theorem not_mem_intercalate {c d : Char} (hne : c ≠ d) {items : List (List Char)}
    (h : ∀ i ∈ items, c ∉ i) : c ∉ [d].intercalate items := by
  induction items with
  | nil => exact List.not_mem_nil
  | cons i items ih =>
    obtain ⟨hi, hitems⟩ := List.forall_mem_cons.mp h
    cases items with
    | nil => simpa using hi
    | cons j items =>
      rw [List.intercalate_cons_cons, List.mem_append, List.mem_append, List.mem_singleton, not_or,
        not_or]
      exact ⟨⟨hi, hne⟩, ih hitems⟩

theorem append_intercalate_cons (l i : List Char) (items : List (List Char)) :
    l ++ ['&'].intercalate (i :: items) = ['&'].intercalate ((l ++ i) :: items) := by
  cases items with
  | nil => simp
  | cons j items => simp [List.intercalate_cons_cons]

theorem splitOn_append_cons (a b : List Char) :
    (a ++ '&' :: b).splitOn '&' = a.splitOn '&' ++ b.splitOn '&' := by
  have hsep : (fun c => c == '&') '&' = true := rfl
  rw [List.splitOn_eq_splitOnP, List.splitOn_eq_splitOnP, List.splitOn_eq_splitOnP]
  exact List.splitOnP_append_cons a b hsep

theorem queryPairs_of_query? {url q : List Char} (h : query? url = some q) :
    queryPairs url = (q.splitOn '&').map itemPair := by
  rw [queryPairs, h]

/-- Items behind an `&` are items of their own. -/
theorem splitOn_append_items (q : List Char) {items : List (List Char)} (hne : items ≠ [])
    (h : ∀ i ∈ items, '&' ∉ i) :
    (q ++ '&' :: ['&'].intercalate items).splitOn '&' = q.splitOn '&' ++ items := by
  rw [splitOn_append_cons, List.splitOn_intercalate _ h hne]

/-- Elsewhere the first of them continues the item that it stands behind. -/
theorem exists_splitOn_append (q : List Char) :
    ∃ before l, ∀ (i : List Char) (items : List (List Char)), '&' ∉ i → (∀ i ∈ items, '&' ∉ i) →
      (q ++ ['&'].intercalate (i :: items)).splitOn '&' = before ++ (l ++ i) :: items := by
  have hsplit {l : List Char} (hl : '&' ∉ l) (i : List Char) (items : List (List Char))
      (hi : '&' ∉ i) (hitems : ∀ i ∈ items, '&' ∉ i) :
      (l ++ ['&'].intercalate (i :: items)).splitOn '&' = (l ++ i) :: items := by
    rw [append_intercalate_cons, List.splitOn_intercalate _ _ (List.cons_ne_nil _ _)]
    refine List.forall_mem_cons.mpr ⟨?_, hitems⟩
    rw [List.mem_append, not_or]
    exact ⟨hl, hi⟩
  by_cases hq : '&' ∈ q
  · obtain ⟨a, b, heq, ha⟩ := List.eq_append_cons_of_mem (List.mem_reverse.mpr hq)
    have hqab : q = b.reverse ++ '&' :: a.reverse := by
      rw [← List.reverse_reverse q, heq]
      simp
    refine ⟨b.reverse.splitOn '&', a.reverse, fun i items hi hitems => ?_⟩
    rw [hqab, List.append_assoc, List.cons_append, splitOn_append_cons,
      hsplit (by simpa using ha) i items hi hitems]
  · exact ⟨[], q, hsplit hq⟩

end Text

namespace Script

open Text (query? queryPairs itemPair itemText splitOn_append_items)

variable (e : Environment)

/-- A parameter as it is written into a query. -/
def parameterItem (p : Plan.Pair) : List Char :=
  itemText p.name.toList (e.substituteChars p.value.toList)

/-- A parameter as it is to be read. -/
def parameterBytes (p : Plan.Pair) : List UInt8 × List UInt8 :=
  (Text.utf8 p.name.toList, Text.utf8 (e.substituteChars p.value.toList))

theorem queryText_eq (ps : List Plan.Pair) :
    queryText e ps = ['&'].intercalate (ps.map (parameterItem e)) :=
  rfl

theorem map_itemPair_parameterItem (ps : List Plan.Pair) :
    (ps.map (parameterItem e)).map itemPair = ps.map (parameterBytes e) := by
  rw [List.map_map]
  exact List.map_congr_left fun p _ => Text.itemPair_itemText _ _

theorem not_mem_parameterItem (ps : List Plan.Pair) : ∀ i ∈ ps.map (parameterItem e), '&' ∉ i := by
  intro i hi
  obtain ⟨p, -, rfl⟩ := List.mem_map.mp hi
  exact Text.not_mem_itemText rfl (by decide) (by decide) _ _

theorem not_mem_queryText (ps : List Plan.Pair) : '#' ∉ queryText e ps := by
  refine Text.not_mem_intercalate (by decide) fun i hi => ?_
  obtain ⟨p, -, rfl⟩ := List.mem_map.mp hi
  exact Text.not_mem_itemText rfl (by decide) (by decide) _ _

/-! ## What stands in front of the query -/

/-- The URL ends with a `?` that is not its first. -/
def Reopens (url : List Char) : Prop :=
  url.getLast? = some '?' ∧ '?' ∈ url.dropLast

instance (url : List Char) : Decidable (Reopens url) :=
  inferInstanceAs (Decidable (_ ∧ _))

theorem querySeparator_of_not_mem {url : List Char} (h : '?' ∉ url) :
    querySeparator url = ['?'] := by
  simp [querySeparator, h]

theorem querySeparator_of_mem {url : List Char} (h : '?' ∈ url) : querySeparator url =
    if url.getLast? = some '?' ∨ url.getLast? = some '&' then [] else ['&'] := by
  simp [querySeparator, h]

/-- The items stand where a query or an item starts, unless the URL ends with a `?` that is not its
first: then they stand behind that. -/
theorem exists_separated (url : List Char) :
    ∃ before q, url ++ querySeparator url = before ++ '?' :: q ∧ '?' ∉ before ∧
      ((¬ Reopens url ∧ (q = [] ∨ ∃ q', q = q' ++ ['&'])) ∨
        (Reopens url ∧ ∃ q', q = q' ++ ['?'])) := by
  by_cases hmark : '?' ∈ url
  · obtain ⟨before, q, rfl, hfirst⟩ := List.eq_append_cons_of_mem hmark
    rw [querySeparator_of_mem hmark]
    rcases q.eq_nil_or_concat' with rfl | ⟨q', c, rfl⟩
    · refine ⟨before, [], by simp, hfirst, .inl ⟨?_, .inl rfl⟩⟩
      simpa [Reopens] using hfirst
    · have hurl : before ++ '?' :: (q' ++ [c]) = (before ++ '?' :: q') ++ [c] := by simp
      have hlast : (before ++ '?' :: (q' ++ [c])).getLast? = some c := by
        rw [hurl, List.getLast?_concat]
      have hreopens : Reopens (before ++ '?' :: (q' ++ [c])) ↔ c = '?' := by
        rw [Reopens, hlast, hurl, List.dropLast_concat]
        simp
      rw [hlast, hreopens]
      by_cases hopens : c = '?'
      · exact ⟨before, q' ++ [c], by simp [hopens], hfirst, .inr ⟨hopens, q', hopens ▸ rfl⟩⟩
      · by_cases hitem : c = '&'
        · exact ⟨before, q' ++ [c], by simp [hitem], hfirst,
            .inl ⟨hopens, .inr ⟨q', hitem ▸ rfl⟩⟩⟩
        · exact ⟨before, q' ++ [c] ++ ['&'], by simp [hopens, hitem], hfirst,
            .inl ⟨hopens, .inr ⟨q' ++ [c], rfl⟩⟩⟩
  · refine ⟨url, [], by rw [querySeparator_of_not_mem hmark], hmark, .inl ⟨?_, .inl rfl⟩⟩
    rintro ⟨hlast, -⟩
    exact hmark (List.mem_of_getLast? hlast)

/-! ## What is read -/

theorem map_itemPair_splitOn {items : List Plan.Pair} (hne : items ≠ []) (q : List Char) :
    ((queryText e items).splitOn '&').map itemPair = items.map (parameterBytes e) ∧
      ((q ++ ['&'] ++ queryText e items).splitOn '&').map itemPair =
        (q.splitOn '&').map itemPair ++ items.map (parameterBytes e) := by
  have hne : items.map (parameterItem e) ≠ [] := fun h => hne (List.map_eq_nil_iff.mp h)
  have hitems := not_mem_parameterItem e items
  rw [queryText_eq, List.splitOn_intercalate _ hitems hne, List.append_assoc,
    List.singleton_append, splitOn_append_items q hne hitems, List.map_append,
    map_itemPair_parameterItem]
  exact ⟨rfl, rfl⟩

/-- Behind a `?` the first of the parameters is read as another pair. -/
theorem not_suffix_map_itemPair (q : List Char) (p : Plan.Pair) (ps : List Plan.Pair) :
    ¬ (p :: ps).map (parameterBytes e) <:+
      ((q ++ ['?'] ++ queryText e (p :: ps)).splitOn '&').map itemPair := by
  obtain ⟨before, l, hsplit⟩ := Text.exists_splitOn_append q
  have hmarked : q ++ ['?'] ++ queryText e (p :: ps) =
      q ++ ['&'].intercalate (('?' :: parameterItem e p) :: ps.map (parameterItem e)) := by
    rw [queryText_eq, List.append_assoc, List.map_cons, Text.append_intercalate_cons]
    rfl
  have hfirst : '&' ∉ '?' :: parameterItem e p := by
    rw [List.mem_cons, not_or]
    exact ⟨by decide, not_mem_parameterItem e [p] _ List.mem_cons_self⟩
  rw [hmarked, hsplit _ _ hfirst (not_mem_parameterItem e ps), List.map_append, List.map_cons,
    List.map_cons, map_itemPair_parameterItem]
  intro hsuffix
  -- Both end the same list and are of one length, so they are the same.
  have hle := List.suffix_of_suffix_length_le hsuffix (List.suffix_append _ _) (by simp)
  exact Text.itemPair_behind_ne l _ _ (List.cons.inj (hle.eq_of_length (by simp))).1.symm

theorem suffix_queryPairs_iff {url : List Char} (hfragment : '#' ∉ url) (p : Plan.Pair)
    (ps : List Plan.Pair) : (p :: ps).map (parameterBytes e) <:+
      queryPairs (url ++ querySeparator url ++ queryText e (p :: ps)) ↔ ¬ Reopens url := by
  obtain ⟨before, q, hsent, hfirst, hq⟩ := exists_separated url
  have hseparator : '#' ∉ querySeparator url := by
    rw [querySeparator]
    split_ifs <;> decide
  have hquery : query? (url ++ querySeparator url ++ queryText e (p :: ps)) =
      some (q ++ queryText e (p :: ps)) := by
    have hmem : '#' ∉ url ++ querySeparator url ++ queryText e (p :: ps) := by
      rw [List.mem_append, List.mem_append, not_or, not_or]
      exact ⟨⟨hfragment, hseparator⟩, not_mem_queryText e _⟩
    rw [hsent, List.append_assoc, List.cons_append] at hmem ⊢
    exact Text.query?_of_not_mem hmem hfirst
  have hread := map_itemPair_splitOn e (List.cons_ne_nil p ps)
  rw [Text.queryPairs_of_query? hquery]
  obtain ⟨hreopens, rfl | ⟨q', rfl⟩⟩ | ⟨hreopens, q', rfl⟩ := hq
  · refine iff_of_true ?_ hreopens
    rw [List.nil_append]
    exact (hread []).1 ▸ List.suffix_refl _
  · refine iff_of_true ?_ hreopens
    exact (hread q').2 ▸ List.suffix_append _ _
  · exact iff_of_false (not_suffix_map_itemPair e q' p ps) (not_not_intro hreopens)

/-- A URL with parameters starts with the substituted URL of the request.  If that has a fragment,
the parameters are added there and not to its query.  If it has none, the query ends with the
declared pairs exactly if the substituted URL does not end with a `?` behind another: behind such a
`?` the first pair is read as a part of an item that was there. -/
theorem queryPairs_requestUrl (c : Plan.Call) (p : Plan.Pair) (ps : List Plan.Pair) :
    let url := e.substituteChars c.url.toList
    let sent := (requestUrl e { c with parameters := p :: ps }).toList
    url <+: sent ∧
      ('#' ∈ url → queryPairs sent = queryPairs url) ∧
      ('#' ∉ url → ((p :: ps).map (parameterBytes e) <:+ queryPairs sent ↔ ¬ Reopens url)) := by
  intro url sent
  have hsent : sent = url ++ querySeparator url ++ queryText e (p :: ps) := by
    show (requestUrl e { c with parameters := p :: ps }).toList = _
    rw [requestUrl, if_neg (List.cons_ne_nil p ps), String.toList_ofList]
  rw [hsent]
  refine ⟨?_, fun hfragment => ?_, fun hfragment => suffix_queryPairs_iff e hfragment p ps⟩
  · rw [List.append_assoc]
    exact List.prefix_append _ _
  · rw [List.append_assoc, queryPairs, Text.query?_append_of_mem hfragment, queryPairs]

/-- The parameter `x` is lost behind the `?` that `/find?q=what?` ends with, and in the fragment of
`/a#top`. -/
theorem queryPairs_requestUrl_lost :
    let bytes := parameterBytes (.new "") ⟨"x", "1"⟩
    let sent (url : String) :=
      (requestUrl (.new "") ⟨"", "get", url, [⟨"x", "1"⟩], []⟩).toList
    ¬ [bytes] <:+ queryPairs (sent "/find?q=what?") ∧ ¬ [bytes] <:+ queryPairs (sent "/a#top") := by
  intro bytes sent
  let call (url : String) : Plan.Call := ⟨"", "get", url, [], []⟩
  constructor
  · have hread := queryPairs_requestUrl (.new "") (call "/find?q=what?") ⟨"x", "1"⟩ []
    exact fun hsuffix => (hread.2.2 (by decide)).mp hsuffix (by decide)
  · have hread := queryPairs_requestUrl (.new "") (call "/a#top") ⟨"x", "1"⟩ []
    have hown : queryPairs ((Environment.new "").substituteChars "/a#top".toList) = [] := by decide
    have hsent : queryPairs (sent "/a#top") = [] := (hread.2.1 (by decide)).trans hown
    rw [hsent, List.suffix_nil]
    exact List.cons_ne_nil _ _

end Script
end LoadTest
