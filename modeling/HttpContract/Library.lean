import HttpContract.Binary64.Basic
import HttpContract.Random

/-!
# Library — what is taken from elsewhere

Which patterns are small enough to be used, and how texts that match a pattern, filler texts,
personal data and doubles of a range are made, is left to libraries. Nothing is said of their texts;
a double of a range that is not empty lies in it.
-/

namespace HttpContract

/-- What libraries do. -/
class Library where
  /-- Whether the automaton of a well-formed pattern is small enough. -/
  allowsPattern : String → Bool
  /-- Draws a text that a pattern matches, with at most so many rounds of a repetition that has no
  upper bound, or tells why none can be drawn. -/
  matchingText : String → Nat → Except String (Sampler String)
  /-- Draws a filler word. -/
  word : Sampler String
  /-- Draws filler words, as many as the first number at least and fewer than the second. -/
  words : Nat → Nat → Sampler (List String)
  /-- Draws a sentence of so many words. -/
  sentence : Nat → Nat → Sampler String
  /-- Draws so many paragraphs. -/
  paragraphs : Nat → Nat → Sampler (List String)
  /-- Draws the name of a person. -/
  personName : Sampler String
  /-- Draws an address of mail. -/
  mailAddress : Sampler String
  /-- Draws a telephone number. -/
  phoneNumber : Sampler String
  /-- Draws the number of a building. -/
  buildingNumber : Sampler String
  /-- Draws the name of a street. -/
  streetName : Sampler String
  /-- Draws a double that is at least the first one and below the second. -/
  double (lo hi : Binary64) : Sampler { x : Binary64 // lo.less hi → lo.atMost x ∧ x.less hi }

end HttpContract
