import Mathlib.Data.String.Basic
import Capic.Data.Segments

/-!
# Text as the source handles it

The few functions of Go's `strings` and `path` packages the provider relies on,
over the list of a string's characters, so that they compute. `Sprintf` with `%s`
and `%d` is `++` and `toString`.
-/

namespace Capic.Text

/-- The part before and the part after the first occurrence of `sep`, if there is one. -/
def cutChars (sep : List Char) : List Char → List Char → Option (List Char × List Char)
  | before, [] => if sep = [] then some (before.reverse, []) else none
  | before, c :: cs =>
    if sep.isPrefixOf (c :: cs) then some (before.reverse, (c :: cs).drop sep.length)
    else cutChars sep (c :: before) cs

/-- `strings.Cut`: what comes before `sep`, what comes after it, and whether it occurs. -/
def cut (s sep : String) : String × String × Bool :=
  match cutChars sep.toList [] s.toList with
  | some (before, after) => (String.ofList before, String.ofList after, true)
  | none => (s, "", false)

/-- `strings.HasSuffix`. -/
def hasSuffix (s suffix : String) : Bool := suffix.toList.isSuffixOf s.toList

/-- `strings.TrimSuffix`. -/
def trimSuffix (s suffix : String) : String :=
  if hasSuffix s suffix then String.ofList (s.toList.take (s.toList.length - suffix.toList.length))
  else s

/-- `strings.Contains`. -/
def contains (s part : String) : Bool := (cutChars part.toList [] s.toList).isSome

theorem cutChars_isSome (sep before s : List Char) :
    (cutChars sep before s).isSome = true ↔ sep <:+: s := by
  induction s generalizing before with
  | nil =>
    unfold cutChars
    split
    next h => simp [h]
    next h => simp [h]
  | cons c s ih =>
    unfold cutChars
    rw [List.infix_cons_iff, ← List.isPrefixOf_iff_prefix]
    split
    next h => simp [h]
    next h =>
      rw [ih]
      simp [h]

theorem contains_iff {s part : String} : contains s part = true ↔ part.toList <:+: s.toList :=
  cutChars_isSome part.toList [] s.toList

theorem hasSuffix_iff {s suffix : String} :
    hasSuffix s suffix = true ↔ suffix.toList <:+ s.toList := List.isSuffixOf_iff_suffix

theorem cut_of_notMem {c : Char} {s : String} (h : c ∉ s.toList) :
    (cut s (String.ofList [c])).1 = s := by
  have hnone : cutChars [c] [] s.toList = none := by
    rw [← Option.not_isSome_iff_eq_none, cutChars_isSome, List.singleton_infix_iff]
    exact h
  rw [cut, String.toList_ofList, hnone]

theorem cutChars_append {c : Char} {a : List Char} (before b : List Char) (h : c ∉ a) :
    cutChars [c] before (a ++ c :: b) = some (before.reverse ++ a, b) := by
  induction a generalizing before with
  | nil => simp [cutChars, List.isPrefixOf]
  | cons d a ih =>
    have hd : c ≠ d := fun e => h (e ▸ List.mem_cons_self)
    have ha : c ∉ a := fun hmem => h (List.mem_cons_of_mem _ hmem)
    rw [List.cons_append, cutChars, ih (d :: before) ha]
    simp [List.isPrefixOf, hd]

/-- The text before the first occurrence of a character. -/
theorem cut_append {c : Char} {a : String} (b : String) (h : c ∉ a.toList) :
    (cut (a ++ String.ofList [c] ++ b) (String.ofList [c])).1 = a := by
  have hchars : (a ++ String.ofList [c] ++ b).toList = a.toList ++ c :: b.toList := by simp
  rw [cut, hchars, String.toList_ofList, cutChars_append [] _ h]
  simp

theorem trimSuffix_of_not {s suffix : String} (h : ¬ suffix.toList <:+ s.toList) :
    trimSuffix s suffix = s := if_neg fun hs => h (hasSuffix_iff.mp hs)

theorem trimSuffix_append (s suffix : String) : trimSuffix (s ++ suffix) suffix = s := by
  have hsuffix : hasSuffix (s ++ suffix) suffix = true := by
    rw [hasSuffix_iff, String.toList_append]
    exact List.suffix_append ..
  rw [trimSuffix, if_pos hsuffix]
  simp

/-- The elements of a path: the text between slashes. -/
def elements : List Char → List Char → List (List Char)
  | cur, [] => [cur.reverse]
  | cur, c :: cs => if c = '/' then cur.reverse :: elements [] cs else elements (c :: cur) cs

/-- `path.Clean` of a relative path, on its elements, those kept so far last first:
empty and `.` elements go, and `..` takes back the element before it. -/
def cleanElements : List (List Char) → List (List Char) → List (List Char)
  | kept, [] => kept.reverse
  | kept, e :: es =>
    if e = [] ∨ e = ['.'] then cleanElements kept es
    else if e = ['.', '.'] then
      match kept with
      | k :: ks => if k = ['.', '.'] then cleanElements (e :: kept) es else cleanElements ks es
      | [] => cleanElements [e] es
    else cleanElements (e :: kept) es

/-- `path.Join` of elements the first of which is not empty and does not start with a slash. -/
def pathJoin (elems : List String) : String :=
  let joined := cleanElements [] ((elems.filter (· ≠ "")).flatMap fun e => elements [] e.toList)
  if joined = [] then "." else String.ofList (List.intercalate ['/'] joined)

theorem elements_of_notMem {e : List Char} (cur : List Char) (h : '/' ∉ e) :
    elements cur e = [cur.reverse ++ e] := by
  induction e generalizing cur with
  | nil => simp [elements]
  | cons c e ih =>
    have hc : c ≠ '/' := fun heq => h (heq ▸ List.mem_cons_self)
    rw [elements, if_neg hc, ih (c :: cur) fun hmem => h (List.mem_cons_of_mem _ hmem)]
    simp

/-- `path.Clean` leaves the text alone, as an element of a path. -/
def isClean (e : String) : Prop := e ≠ "" ∧ '/' ∉ e.toList ∧ e ≠ "." ∧ e ≠ ".."

theorem cleanElements_of_clean {elems : List String} (kept : List (List Char))
    (h : ∀ e ∈ elems, isClean e) :
    cleanElements kept (elems.map String.toList) = kept.reverse ++ elems.map String.toList := by
  induction elems generalizing kept with
  | nil => simp [cleanElements]
  | cons e elems ih =>
    obtain ⟨hempty, -, hdot, hdots⟩ := h e List.mem_cons_self
    have hne : ∀ s : String, e ≠ s → e.toList ≠ s.toList := fun s hs heq =>
      hs (String.toList_inj.mp heq)
    have hskip : ¬ (e.toList = [] ∨ e.toList = ['.']) := by
      intro heq
      rcases heq with heq | heq
      · exact hne "" hempty heq
      · exact hne "." hdot heq
    have hback : e.toList ≠ ['.', '.'] := hne ".." hdots
    have hkeep : cleanElements kept (e.toList :: elems.map String.toList) =
        cleanElements (e.toList :: kept) (elems.map String.toList) := by
      rw [cleanElements.eq_def]
      simp only [hskip, hback, if_false]
    rw [List.map_cons, hkeep, ih _ fun e' he' => h e' (List.mem_cons_of_mem _ he')]
    simp

/-- `path.Join` of clean elements only puts slashes between them. -/
theorem pathJoin_of_clean {elems : List String} (hne : elems ≠ []) (h : ∀ e ∈ elems, isClean e) :
    pathJoin elems = "/".intercalate elems := by
  have hfilter : elems.filter (· ≠ "") = elems :=
    List.filter_eq_self.mpr fun e he => by simpa using (h e he).1
  have helems : (elems.flatMap fun e => elements [] e.toList) = elems.map String.toList := by
    rw [← List.flatMap_singleton' (elems.map String.toList), List.flatMap_map]
    refine List.flatMap_congr fun e he => ?_
    rw [elements_of_notMem [] (h e he).2.1]
    rfl
  have hjoined : cleanElements [] (elems.map String.toList) = elems.map String.toList :=
    cleanElements_of_clean [] h
  rw [pathJoin, hfilter, helems, hjoined, if_neg (by simpa using hne)]
  refine String.toList_inj.mp ?_
  rw [String.toList_ofList, String.toList_intercalate]
  rfl

/-- What was passed over comes first in what is cut off. -/
theorem cutChars_before {sep before l before' after' : List Char}
    (h : cutChars sep before l = some (before', after')) : before.reverse <+: before' := by
  induction l generalizing before with
  | nil =>
    rw [cutChars] at h
    split at h
    next =>
      cases h
      exact List.prefix_refl _
    next => cases h
  | cons c cs ih =>
    rw [cutChars] at h
    split at h
    next =>
      cases h
      exact List.prefix_refl _
    next =>
      refine List.IsPrefix.trans ?_ (ih h)
      rw [List.reverse_cons]
      exact List.prefix_append _ _

/-- Something is left of a text that does not begin with the separator. -/
theorem cut_ne_empty {s sep : String} {c d : Char} {cs ds : List Char} (hs : s.toList = c :: cs)
    (hsep : sep.toList = d :: ds) (hne : d ≠ c) : (cut s sep).1 ≠ "" := by
  have hstep : cutChars sep.toList [] s.toList = cutChars sep.toList [c] cs := by
    rw [hs, hsep, cutChars, if_neg (by simp [List.isPrefixOf, hne])]
  unfold cut
  rw [hstep]
  split
  next before after hcut =>
    intro hempty
    have hbefore : before = [] := by simpa using congrArg String.toList hempty
    have hprefix := cutChars_before hcut
    rw [hbefore] at hprefix
    cases List.prefix_nil.mp hprefix
  next =>
    intro hempty
    rw [show s = "" from hempty] at hs
    cases hs

/-! ## Numbers and encodings -/

/-- The digits of `strconv.ParseUint(s, 10, 32)`: the first character that is none, or
the first digit that makes the number too large, decides the error. -/
def parseDigits (n : Nat) : List Char → Except String Nat
  | [] => .ok n
  | c :: cs =>
    if c < '0' ∨ '9' < c then .error "invalid syntax"
    else
      let n := n * 10 + (c.toNat - '0'.toNat)
      if n ≥ 2 ^ 32 then .error "value out of range" else parseDigits n cs

/-- The sign of a number, and what follows it. -/
def sign : List Char → Bool × List Char
  | '-' :: cs => (true, cs)
  | '+' :: cs => (false, cs)
  | cs => (false, cs)

/-- `strconv.ParseInt(s, 10, 32)`, with the text of its error. -/
def parseInt32 (s : String) : Except String Int :=
  let fail := fun text => .error ("strconv.ParseInt: parsing \"" ++ s ++ "\": " ++ text)
  let (negative, digits) := sign s.toList
  if digits = [] then fail "invalid syntax"
  else
    match parseDigits 0 digits with
    | .error text => fail text
    | .ok n =>
      if negative then if n > 2 ^ 31 then fail "value out of range" else .ok (-n)
      else if n ≥ 2 ^ 31 then fail "value out of range"
      else .ok n

/-- The digit of base 64 for a number below 64. -/
def base64Digit (n : Nat) : Char :=
  if n < 26 then Char.ofNat ('A'.toNat + n)
  else if n < 52 then Char.ofNat ('a'.toNat + (n - 26))
  else if n < 62 then Char.ofNat ('0'.toNat + (n - 52))
  else if n = 62 then '+'
  else '/'

/-- Three bytes at a time become four digits; one or two left over are padded. -/
def base64Bytes : List Nat → List Char
  | [] => []
  | [a] => [base64Digit (a / 4), base64Digit (a % 4 * 16), '=', '=']
  | [a, b] =>
    [base64Digit (a / 4), base64Digit (a % 4 * 16 + b / 16), base64Digit (b % 16 * 4), '=']
  | a :: b :: c :: bytes =>
    base64Digit (a / 4) :: base64Digit (a % 4 * 16 + b / 16) ::
      base64Digit (b % 16 * 4 + c / 64) :: base64Digit (c % 64) :: base64Bytes bytes

/-- `base64.StdEncoding.EncodeToString` of a text's bytes. -/
def base64 (s : String) : String :=
  String.ofList (base64Bytes ((s.toList.flatMap String.utf8EncodeChar).map UInt8.toNat))

/-! ## Names -/

/-- A DNS label, as namespaces are, and as every object may be called. -/
def isDNS1123Label (s : String) : Bool :=
  let alphanumeric := fun c : Char => c.isDigit || c.isLower
  s.toList.all (fun c => alphanumeric c || c = '-') && s.toList.head?.any alphanumeric &&
    s.toList.getLast?.any alphanumeric && s.toList.length ≤ 63

/-! ## Texts joined by a hyphen -/

/-- `fmt.Sprintf("%s-%s", a, b)`. -/
def hyphenated (a b : String) : String := a ++ "-" ++ b

theorem toList_hyphenated (a b : String) :
    (hyphenated a b).toList = a.toList ++ '-' :: b.toList := by
  unfold hyphenated
  rw [String.toList_append, String.toList_append, List.append_assoc]
  rfl

/-- Two pairs of texts are joined to the same text only if they are the same, or one of the
first parts goes on where the other ends. -/
theorem hyphenated_eq {a b a' b' : String} (h : hyphenated a b = hyphenated a' b') :
    a = a' ∧ b = b' ∨ (∃ s, a' = hyphenated a s ∧ b = hyphenated s b') ∨
      ∃ s, a = hyphenated a' s ∧ b' = hyphenated s b := by
  have hchars : a.toList ++ '-' :: b.toList = a'.toList ++ '-' :: b'.toList := by
    rw [← toList_hyphenated, ← toList_hyphenated, h]
  -- what one first part has more than the other is empty, or begins with the hyphen
  have hpart : ∀ {a b a' b' : String} (s : List Char), a'.toList = a.toList ++ s →
      '-' :: b.toList = s ++ '-' :: b'.toList →
      a = a' ∧ b = b' ∨ ∃ s, a' = hyphenated a s ∧ b = hyphenated s b' := by
    intro a b a' b' s ha hb
    cases s with
    | nil =>
      refine .inl ⟨String.toList_inj.mp ?_, String.toList_inj.mp (List.cons.inj hb).2⟩
      simpa using ha.symm
    | cons c s =>
      obtain ⟨rfl, hb'⟩ := List.cons.inj hb
      refine .inr ⟨String.ofList s, String.toList_inj.mp ?_, String.toList_inj.mp ?_⟩
      · rw [ha, toList_hyphenated, String.toList_ofList]
      · rw [toList_hyphenated, String.toList_ofList]
        exact hb'
  rcases List.append_eq_append_iff.mp hchars with ⟨s, ha, hb⟩ | ⟨s, ha, hb⟩
  · exact (hpart s ha hb).imp_right .inl
  · exact (hpart s ha hb).imp (fun h => ⟨h.1.symm, h.2.symm⟩) .inr

theorem hyphenated_assoc (a b c : String) :
    hyphenated (hyphenated a b) c = hyphenated a (hyphenated b c) := by
  unfold hyphenated
  simp only [String.append_assoc]

theorem ne_hyphenated (a b : String) : a ≠ hyphenated a b := by
  intro h
  have hlength := congrArg (fun s : String => s.toList.length) h
  simp only [toList_hyphenated, List.length_append, List.length_cons] at hlength
  omega

/-- Second parts without a hyphen can be told from the first ones. -/
theorem hyphenated_inj {a b a' b' : String} (hb : '-' ∉ b.toList) (hb' : '-' ∉ b'.toList)
    (h : hyphenated a b = hyphenated a' b') : a = a' ∧ b = b' := by
  have hchars := congrArg String.toList h
  rw [toList_hyphenated, toList_hyphenated] at hchars
  obtain ⟨ha, hb⟩ := Data.append_cons_inj hb' hb hchars
  exact ⟨String.toList_inj.mp ha, String.toList_inj.mp hb⟩

theorem toList_toString (n : Nat) : (toString (n : Int)).toList = Nat.toDigits 10 n :=
  Nat.toList_repr

/-- Natural numbers are printed without a hyphen. -/
theorem hyphen_notMem_toString {n : Int} (hn : 0 ≤ n) : '-' ∉ (toString n).toList := by
  obtain ⟨n, rfl⟩ := Int.eq_ofNat_of_zero_le hn
  rw [toList_toString]
  intro hmem
  have hdigit := Nat.isDigit_of_mem_toDigits (by decide) (by decide) hmem
  exact absurd hdigit (by decide)

theorem toString_inj {n n' : Int} (hn : 0 ≤ n) (hn' : 0 ≤ n') (h : toString n = toString n') :
    n = n' := by
  obtain ⟨n, rfl⟩ := Int.eq_ofNat_of_zero_le hn
  obtain ⟨n', rfl⟩ := Int.eq_ofNat_of_zero_le hn'
  have hdigits : Nat.toDigits 10 n = Nat.toDigits 10 n' := by
    rw [← toList_toString, ← toList_toString, h]
  rw [← Nat.ofDigitChars_toDigits (b := 10) (n := n) (by decide) (by decide), hdigits,
    Nat.ofDigitChars_toDigits (by decide) (by decide)]

end Capic.Text
