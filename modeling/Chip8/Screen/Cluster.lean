import Chip8.Screen.Cluster.Class

/-!
# Clusters

The characters of a line that are seen as one: a letter with its marks, a Hangul syllable, a conjunct of consonants, a
flag, a picture made of several (`clusters`). Whether a character joins the cluster before it is decided by the last
character and by what the characters before that one have begun (`Context.joins`). Main statement: nothing is lost
(`flatten_clusters`).
-/

namespace Chip8.Screen

/-- Something that takes two characters of a kind and a link between them. -/
inductive Bond
  | none
  /-- The first character has been read. -/
  | begun
  /-- The link has been read as well. -/
  | linked
  deriving DecidableEq, Repr

/-- What the characters read so far mean for the next one. -/
structure Context where
  last : BreakClass
  picture : Bond
  conjunct : Bond
  /-- The last character is the first letter of a flag. -/
  halfFlag : Bool
  deriving DecidableEq, Repr

namespace Context

/-- The context at the beginning of a line. -/
def start : Context := ⟨.control, .none, .none, false⟩

/-- Whether a character of a class belongs to the same cluster as the last one. -/
def joins (k : Context) (b : BreakClass) : Bool :=
  match k.last, b with
  | .carriageReturn, .lineFeed => true
  | .carriageReturn, _ | .lineFeed, _ | .control, _ => false
  | _, .carriageReturn | _, .lineFeed | _, .control => false
  | .leading, .leading | .leading, .vowel | .leading, .openSyllable | .leading, .closedSyllable => true
  | .openSyllable, .vowel | .vowel, .vowel => true
  | .openSyllable, .trailing | .vowel, .trailing | .closedSyllable, .trailing | .trailing, .trailing => true
  | _, .extend | _, .joiner | _, .mark => true
  | .lead, _ => true
  | _, .consonant => k.conjunct == .linked
  | _, .picture => k.picture == .linked
  | .flag, .flag => k.halfFlag
  | _, _ => false

/-- How far a picture goes behind a character: it may be extended, and a joiner links it to the next one. -/
def nextPicture (k : Context) : BreakClass → Bond
  | .picture => .begun
  | .extend => if k.picture = .begun then .begun else .none
  | .joiner => if k.picture = .begun then .linked else .none
  | _ => .none

/-- How far a conjunct goes behind a character. -/
def nextConjunct (k : Context) (c : Char) : BreakClass → Bond
  | .consonant => .begun
  | .extend =>
    if parts c || k.conjunct == .none then .none
    else if isLinker c then .linked
    else k.conjunct
  | .joiner => k.conjunct
  | _ => .none

/-- The context behind a character. -/
def next (k : Context) (c : Char) : Context :=
  let b := breakClass c
  ⟨b, k.nextPicture b, k.nextConjunct c b, b == .flag && !k.halfFlag⟩

end Context

/-- The clusters of a line behind an unfinished one, whose characters are newest first. -/
def clustersFrom (k : Context) (current : List Char) : List Char → List (List Char)
  | [] => [current.reverse]
  | c :: rest =>
    if k.joins (breakClass c) then clustersFrom (k.next c) (c :: current) rest
    else current.reverse :: clustersFrom (k.next c) [c] rest

/-- The clusters of a line. -/
def clusters : List Char → List (List Char)
  | [] => []
  | c :: rest => clustersFrom (Context.start.next c) [c] rest

theorem flatten_clustersFrom (k : Context) (current rest : List Char) :
    (clustersFrom k current rest).flatten = current.reverse ++ rest := by
  induction rest generalizing k current with
  | nil => simp [clustersFrom]
  | cons c rest ih =>
    unfold clustersFrom
    split
    · simp [ih]
    · simp [ih]

theorem flatten_clusters (line : List Char) : (clusters line).flatten = line := by
  cases line with
  | nil => rfl
  | cons c rest => simp [clusters, flatten_clustersFrom]

end Chip8.Screen
