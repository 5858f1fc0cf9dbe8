import Mathlib.Data.List.Basic

/-!
# Regular expressions with a preference

Backtracking matchers do not ask whether a pattern matches, but how it matches first: alternatives
are tried from left to right, repetitions take as much as they can, and the first way to match the
whole pattern is taken. Here `Regex.ends` lists all the places at which a match that starts at a
given place can end, in the order in which they are tried, each with the text of the group of the
pattern; `Regex.search` and `Regex.findAll` take its head.

Patterns have one group, and repeat single characters only. The classes of characters are arbitrary.
-/

namespace AlphaOne.Foundations

/-! ## Places in a text -/

/-- A place in a text: the characters before it, the nearest first, and those after it. -/
structure Place where
  before : List Char := []
  after : List Char
  deriving DecidableEq, Repr

namespace Place

/-- The characters between a place and a later one. -/
def upTo (p q : Place) : List Char := p.after.take (p.after.length - q.after.length)

/-- The places from `p` on. -/
def onwards : List Char → List Char → List Place
  | before, [] => [⟨before, []⟩]
  | before, c :: after => ⟨before, c :: after⟩ :: onwards (c :: before) after

/-- The places that are reached by passing no, one, two, … characters that meet a test. -/
def passes (test : Char → Bool) : List Char → List Char → List Place
  | before, [] => [⟨before, []⟩]
  | before, c :: after =>
    ⟨before, c :: after⟩ :: if test c then passes test (c :: before) after else []

/-- One of the two characters at a place is part of a word, and the other is not. -/
def atBoundary (word : Char → Bool) (p : Place) : Bool :=
  p.before.head?.any word != p.after.head?.any word

/-- The end of a text, or the line break that ends it. -/
def atEnd (p : Place) : Bool := p.after == [] || p.after == ['\n']

end Place

/-! ## Patterns -/

inductive Regex
  /-- One character of a class. -/
  | char (test : Char → Bool)
  /-- The border of a word, `\b`. -/
  | boundary (word : Char → Bool)
  /-- The end of the text, `$`. -/
  | endOfText
  | seq (r s : Regex)
  /-- `r|s` -/
  | alt (r s : Regex)
  /-- `r?` -/
  | opt (r : Regex)
  /-- At least `least` characters of a class, and at most `most`. -/
  | many (test : Char → Bool) (least : ℕ) (most : Option ℕ)
  /-- `(r)` -/
  | group (r : Regex)

namespace Regex

/-- The ends of the matches that start at a place, with what their group holds, in the order in
which they are tried. -/
def ends : Regex → Place → List (Place × Option (List Char))
  | char test, p =>
    match p.after with
    | [] => []
    | c :: after => if test c then [(⟨c :: p.before, after⟩, none)] else []
  | boundary word, p => if p.atBoundary word then [(p, none)] else []
  | endOfText, p => if p.atEnd then [(p, none)] else []
  | seq r s, p => (r.ends p).flatMap fun (q, g) => (s.ends q).map fun (q', g') => (q', g'.or g)
  | alt r s, p => r.ends p ++ s.ends p
  | opt r, p => r.ends p ++ [(p, none)]
  | many test least most, p =>
    let places := Place.passes test p.before p.after
    let allowed := match most with
      | none => places
      | some n => places.take (n + 1)
    ((allowed.drop least).reverse).map fun q => (q, none)
  | group r, p => (r.ends p).map fun (q, _) => (q, some (p.upTo q))

/-- A match. -/
structure Match where
  start : Place
  stop : Place
  group : Option (List Char)
  deriving DecidableEq, Repr

/-- The text that is matched. -/
def Match.text (m : Match) : List Char := m.start.upTo m.stop

/-- The match that starts at a place. -/
def matchAt (r : Regex) (p : Place) : Option Match :=
  (r.ends p).head?.map fun (q, g) => ⟨p, q, g⟩

/-- The leftmost match in a text. -/
def search (r : Regex) (text : List Char) : Option Match :=
  (Place.onwards [] text).findSome? r.matchAt

/-- What the group of the leftmost match holds. -/
def capture (r : Regex) (text : List Char) : Option (List Char) :=
  (r.search text).bind Match.group

/-- The matches that start at the places of a list, after the first `skip` of them; none of them
starts before the one before it has ended. -/
def collect (r : Regex) : List Place → ℕ → List Match
  | [], _ => []
  | _ :: places, skip + 1 => collect r places skip
  | p :: places, 0 =>
    match r.matchAt p with
    | none => collect r places 0
    | some m => m :: collect r places (m.text.length - 1)

/-- The matches in a text, from left to right. -/
def findAll (r : Regex) (text : List Char) : List Match := r.collect (Place.onwards [] text) 0

/-- A text without the leftmost match. -/
def remove (r : Regex) (text : List Char) : List Char :=
  match r.search text with
  | none => text
  | some m => m.start.before.reverse ++ m.stop.after

/-- The patterns one after another. -/
def concat : List Regex → Regex
  | [] => many (fun _ => false) 0 none
  | [r] => r
  | r :: rs => seq r (concat rs)

/-- The alternatives of a list. -/
def oneOf : List Regex → Regex
  | [] => char fun _ => false
  | [r] => r
  | r :: rs => alt r (oneOf rs)

end Regex

end AlphaOne.Foundations
