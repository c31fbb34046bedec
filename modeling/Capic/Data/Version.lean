import Mathlib.Data.List.Infix
import Mathlib.Data.List.TakeWhile

/-!
# Version tokens in a text

A version is written `v<major>.<minor>.<patch>`, each part a run of digits. In a longer text, a run
goes as far as there are digits: `versions` lists the versions that a text has.

To look for a version as a part of the text is something else. The part may be found where the text
has a version with more digits (`versions_of_infix`), and it is the version that the text has unless
a digit follows (`version_eq_iff`).
-/

namespace Capic.Data

/-! ## Reading -/

/-- A run of digits, and what follows it. -/
def readNumber (s : List Char) : Option (List Char × List Char) :=
  if s.takeWhile Char.isDigit = [] then none
  else some (s.takeWhile Char.isDigit, s.dropWhile Char.isDigit)

/-- What follows the character that the text starts with. -/
def readChar (c : Char) : List Char → Option (List Char)
  | [] => none
  | c' :: s => if c' = c then some s else none

/-- The version that the text starts with. -/
def readVersion (s : List Char) : Option (List Char) := do
  let s ← readChar 'v' s
  let (major, s) ← readNumber s
  let s ← readChar '.' s
  let (minor, s) ← readNumber s
  let s ← readChar '.' s
  let (patch, _) ← readNumber s
  return 'v' :: (major ++ '.' :: (minor ++ '.' :: patch))

/-- The versions in the text, from left to right. -/
def versions : List Char → List (List Char)
  | [] => []
  | c :: s => (readVersion (c :: s)).toList ++ versions s

/-- The text is a version, all of it. -/
def IsVersion (s : List Char) : Prop := readVersion s = some s

instance (s : List Char) : Decidable (IsVersion s) := inferInstanceAs (Decidable (_ = _))

/-! ## Numbers -/

/-- Digits, at least one. -/
def IsNumber (s : List Char) : Prop := s ≠ [] ∧ ∀ c ∈ s, c.isDigit = true

variable {s n rest text version token : List Char} {c : Char}

theorem readNumber_some (h : readNumber s = some (n, rest)) : IsNumber n ∧ s = n ++ rest := by
  unfold readNumber at h
  split at h
  next => exact nomatch h
  next hne =>
    obtain ⟨rfl, rfl⟩ := Prod.mk.inj (Option.some.inj h)
    exact ⟨⟨hne, fun c hc => List.mem_takeWhile_imp hc⟩, List.takeWhile_append_dropWhile.symm⟩

/-- A run of digits goes on where the text does. -/
theorem readNumber_append (h : IsNumber n) (rest : List Char) :
    readNumber (n ++ rest) =
      some (n ++ rest.takeWhile Char.isDigit, rest.dropWhile Char.isDigit) := by
  unfold readNumber
  rw [List.takeWhile_append_of_pos h.2, List.dropWhile_append_of_pos h.2, if_neg]
  simp [h.1]

theorem readNumber_cons (h : IsNumber n) (hc : c.isDigit = false) (rest : List Char) :
    readNumber (n ++ c :: rest) = some (n, c :: rest) := by
  rw [readNumber_append h]
  simp [hc]

@[simp] theorem readChar_cons : readChar c (c :: rest) = some rest := if_pos rfl

/-! ## Versions -/

theorem readVersion_parts {major minor patch : List Char} (hmajor : IsNumber major)
    (hminor : IsNumber minor) (hpatch : IsNumber patch) (rest : List Char) :
    readVersion ('v' :: (major ++ '.' :: (minor ++ '.' :: (patch ++ rest)))) =
      some ('v' :: (major ++ '.' :: (minor ++ '.' :: (patch ++ rest.takeWhile Char.isDigit)))) := by
  have hdot : Char.isDigit '.' = false := by decide
  simp [readVersion, readNumber_cons hmajor hdot, readNumber_cons hminor hdot,
    readNumber_append hpatch]

theorem readVersion_some (h : readVersion s = some token) :
    ∃ major minor patch, IsNumber major ∧ IsNumber minor ∧ IsNumber patch ∧
      token = 'v' :: (major ++ '.' :: (minor ++ '.' :: patch)) := by
  simp only [readVersion, Option.bind_eq_bind, Option.bind_eq_some_iff] at h
  obtain ⟨_, _, ⟨major, _⟩, hmajor, _, _, ⟨minor, _⟩, hminor, _, _, ⟨patch, _⟩, hpatch, htoken⟩ := h
  exact ⟨major, minor, patch, (readNumber_some hmajor).1, (readNumber_some hminor).1,
    (readNumber_some hpatch).1, (Option.some.inj htoken).symm⟩

/-- At the start of a longer text, a version goes on with the digits that follow. -/
theorem readVersion_append (h : IsVersion version) (rest : List Char) :
    readVersion (version ++ rest) = some (version ++ rest.takeWhile Char.isDigit) := by
  obtain ⟨major, minor, patch, hmajor, hminor, hpatch, rfl⟩ := readVersion_some h
  simpa using readVersion_parts hmajor hminor hpatch rest

theorem mem_versions (before : List Char) (h : readVersion s = some token) :
    token ∈ versions (before ++ s) := by
  induction before with
  | nil =>
    cases s with
    | nil => exact nomatch h
    | cons c s => simp [versions, h]
  | cons c before ih => exact List.mem_append_right _ ih

/-- Where a version is found as a part of the text, the text has a version that starts with it. -/
theorem versions_of_infix (h : IsVersion version) (before after : List Char) :
    version ++ after.takeWhile Char.isDigit ∈ versions (before ++ version ++ after) := by
  rw [List.append_assoc]
  exact mem_versions before (readVersion_append h after)

/-- In a text with one version, the version that is found is that one unless a digit follows. -/
theorem version_eq_iff (h : IsVersion version) (hone : versions text = [token])
    (hfound : version <:+: text) :
    token = version ↔ ∀ d, d.isDigit = true → ¬(version ++ [d]) <:+: text := by
  constructor
  · intro heq d hd hinfix
    obtain ⟨before, after, rfl⟩ := hinfix
    have hmem := versions_of_infix h before (d :: after)
    rw [show before ++ version ++ d :: after = before ++ (version ++ [d]) ++ after by simp, hone,
      List.mem_singleton, heq] at hmem
    simp [hd] at hmem
  · intro hnone
    obtain ⟨before, after, rfl⟩ := hfound
    have hmem := versions_of_infix h before after
    rw [hone, List.mem_singleton] at hmem
    have hafter : after.takeWhile Char.isDigit = [] := by
      cases after with
      | nil => rfl
      | cons d after =>
        have hd : d.isDigit ≠ true := fun hd => hnone d hd ⟨before, after, by simp⟩
        simp [hd]
    rw [← hmem, hafter, List.append_nil]

end Capic.Data
