import Scriptlet.Text.GraphemeTables

/-! What a reader takes for one character: a letter with its marks, a syllable, a flag or a
picture joined from several. Whether a text may be parted between two characters depends on the
classes of both and on a few facts about what comes before, which are gathered from left to
right. -/

namespace Scriptlet

inductive GraphemeClass where
  | carriageReturn
  | lineFeed
  | control
  | extend
  | linker
  | joiner
  /-- An extending character that keeps consonants from being linked. -/
  | nonJoiner
  | regional
  | prepend
  | spacing
  | leading
  | vowel
  | trailing
  /-- A Hangul syllable that ends in its vowel. -/
  | openSyllable
  /-- A Hangul syllable that ends in a consonant. -/
  | closedSyllable
  | picture
  | consonant
  | other
deriving DecidableEq, Repr

namespace GraphemeClass

/-- The syllables are 28 to a pair of leading consonant and vowel, the one without a trailing
consonant first. -/
def hangul? (n : Nat) : Option GraphemeClass :=
  if 0x1100 ≤ n && n ≤ 0x115f || 0xa960 ≤ n && n ≤ 0xa97c then some leading
  else if 0x1160 ≤ n && n ≤ 0x11a7 || 0xd7b0 ≤ n && n ≤ 0xd7c6 then some vowel
  else if 0x11a8 ≤ n && n ≤ 0x11ff || 0xd7cb ≤ n && n ≤ 0xd7fb then some trailing
  else if 0xac00 ≤ n && n ≤ 0xd7a3 then
    some (if (n - 0xac00) % 28 = 0 then openSyllable else closedSyllable)
  else none

def ofChar (c : Char) : GraphemeClass :=
  let n := c.toNat
  if n = 0x0d then carriageReturn
  else if n = 0x0a then lineFeed
  else if 0x20 ≤ n && n < 0x7f then other
  else if n = 0x200c then nonJoiner
  else if n = 0x200d then joiner
  else if 0x1f1e6 ≤ n && n ≤ 0x1f1ff then regional
  else if controlRanges.has n then control
  else if conjunctLinkerRanges.has n then linker
  else if extendRanges.has n then extend
  else if spacingMarkRanges.has n then spacing
  else if prependRanges.has n then prepend
  else if pictographicRanges.has n then picture
  else if conjunctConsonantRanges.has n then consonant
  else (hangul? n).getD other

def isolated : GraphemeClass → Bool
  | carriageReturn | lineFeed | control => true
  | _ => false

def sameSyllable : GraphemeClass → GraphemeClass → Bool
  | leading, leading | leading, vowel | leading, openSyllable | leading, closedSyllable => true
  | openSyllable, vowel | openSyllable, trailing | vowel, vowel | vowel, trailing => true
  | closedSyllable, trailing | trailing, trailing => true
  | _, _ => false

end GraphemeClass

/-- How far a picture has come that another one may be joined to. -/
inductive PictureState where
  | none
  | shown
  | joined
deriving DecidableEq, Repr

/-- How far a conjunct has come that another consonant may be linked to. -/
inductive ConjunctState where
  | none
  | open
  | linked
deriving DecidableEq, Repr

/-- What has to be known of the text up to a place to tell whether it may be parted there. -/
structure GraphemeContext where
  last : GraphemeClass
  /-- Whether the regional indicators at the end are odd in number, so that one waits for its
  partner. -/
  halfFlag : Bool
  picture : PictureState
  conjunct : ConjunctState
deriving DecidableEq, Repr

namespace GraphemeContext

def start : GraphemeContext := ⟨.other, false, .none, .none⟩

def nextPicture (context : GraphemeContext) : GraphemeClass → PictureState
  | .picture => .shown
  | .extend | .linker | .nonJoiner => if context.picture = .shown then .shown else .none
  | .joiner => if context.picture = .shown then .joined else .none
  | _ => .none

def nextConjunct (context : GraphemeContext) : GraphemeClass → ConjunctState
  | .consonant => .open
  | .linker => if context.conjunct = .none then .none else .linked
  | .extend | .joiner => context.conjunct
  | _ => .none

def next (context : GraphemeContext) (c : GraphemeClass) : GraphemeContext where
  last := c
  halfFlag := c = .regional && !context.halfFlag
  picture := context.nextPicture c
  conjunct := context.nextConjunct c

def continues (context : GraphemeContext) (c : GraphemeClass) : Bool :=
  if context.last.isolated || c.isolated then
    context.last = .carriageReturn && c = .lineFeed
  else
    match c with
    | .extend | .linker | .joiner | .nonJoiner | .spacing => true
    | _ =>
        context.last = .prepend || GraphemeClass.sameSyllable context.last c ||
          (c = .consonant && context.conjunct = .linked) ||
          (c = .picture && context.picture = .joined) ||
          (c = .regional && context.halfFlag)

end GraphemeContext

/-- The visible characters found so far, the last one and its last character first. -/
structure GraphemesSoFar where
  context : GraphemeContext
  found : List (List Char)

namespace GraphemesSoFar

def empty : GraphemesSoFar := ⟨.start, []⟩

def add (sofar : GraphemesSoFar) (c : Char) : GraphemesSoFar :=
  let characterClass := GraphemeClass.ofChar c
  ⟨sofar.context.next characterClass,
    match sofar.found with
    | [] => [[c]]
    | grapheme :: rest =>
        if sofar.context.continues characterClass then (c :: grapheme) :: rest
        else [c] :: grapheme :: rest⟩

def all (sofar : GraphemesSoFar) : List (List Char) := (sofar.found.map List.reverse).reverse

end GraphemesSoFar

/-- A text parted wherever one visible character ends. -/
def graphemes (text : List Char) : List (List Char) :=
  (text.foldl GraphemesSoFar.add .empty).all

end Scriptlet
