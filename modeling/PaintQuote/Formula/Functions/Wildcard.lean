/-!
# Wildcards

Matching a text against a pattern in which `?` takes any character and `*` any run of characters.
A stretch of the pattern between two stars is tried at one place of the text after another, and the
first place where it fits is final.  A star in the pattern that stands beside a star in the text is
taken as that character.
-/

namespace PaintQuote.Formula.Wildcard

/-- How far the start of a pattern goes along a text. -/
inductive Stretch where
  /-- The text is used up; the flag says whether the rest of the pattern allows that. -/
  | finished (fits : Bool)
  /-- A character does not fit. -/
  | stuck
  /-- A star is reached, with the pattern after it and the text at it. -/
  | star (pattern text : List Char)
deriving DecidableEq, Repr

/-- Whether a pattern fits a text that is used up. -/
def allStars (pattern : List Char) : Bool := pattern.all (· == '*')

/-- Follows a text along a pattern up to a star. -/
def stretch : List Char → List Char → Stretch
  | pattern, [] => .finished (allStars pattern)
  | [], _ :: _ => .stuck
  | q :: pattern, c :: text =>
      if q = '?' ∨ q = c then stretch pattern text
      else if q = '*' then .star pattern (c :: text)
      else .stuck

theorem length_lt_of_stretch {pattern text pattern' text' : List Char}
    (h : stretch pattern text = .star pattern' text') :
    pattern'.length < pattern.length ∧ text'.length ≤ text.length := by
  induction text generalizing pattern with
  | nil => cases pattern <;> simp [stretch] at h
  | cons c text ih =>
      cases pattern with
      | nil => simp [stretch] at h
      | cons q pattern =>
          rw [stretch] at h
          split at h
          · obtain ⟨h₁, h₂⟩ := ih h
            exact ⟨Nat.lt_succ_of_lt h₁, Nat.le_succ_of_le h₂⟩
          · split at h
            · cases h
              simp
            · cases h

/-- Whether some end of a text fits a pattern that follows a star. -/
def fitsAfterStar (pattern text : List Char) : Bool :=
  match h : stretch pattern text with
  | .finished fits => fits
  | .star pattern' text' =>
      have := length_lt_of_stretch h
      fitsAfterStar pattern' text'
  | .stuck =>
      match text with
      | [] => false
      | _ :: rest => fitsAfterStar pattern rest
termination_by pattern.length + text.length
decreasing_by
  · omega
  · simp

/-- Whether a pattern has wildcards. -/
def hasWildcard (pattern : List Char) : Bool := pattern.any fun c => c == '*' || c == '?'

/-- Whether a text fits a pattern. -/
def fits (pattern text : List Char) : Bool :=
  if hasWildcard pattern then
    match stretch pattern text with
    | .finished fits => fits
    | .stuck => false
    | .star pattern text => fitsAfterStar pattern text
  else pattern == text

example : fits "e?g*s".toList "eggshells".toList = true := by decide +kernel
example : fits "*b".toList "abc".toList = false := by decide +kernel

end PaintQuote.Formula.Wildcard
