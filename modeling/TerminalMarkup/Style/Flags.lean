import TerminalMarkup.Text.Blank

/-!
# Attribute flags

A flags segment of a style code says of some attributes that they are on or off, and leaves the rest open. It is read
letter by letter: an upper-case letter switches its attribute on, a lower-case letter off, and a dash in front switches
everything off first. Other characters mean nothing.

* `Flags.parse` reads a segment, `Flags.letters` writes one,
* `Flags.merge` lays one set of flags over another; `applyAll_eq_merge` says that reading letters is laying what they
  say over the flags read before.
-/

namespace TerminalMarkup

/-- A property of text on a terminal; high intensity selects the bright form of a color. -/
inductive Attribute
  | bold
  | dim
  | underline
  | blink
  | reverse
  | strikethrough
  | italic
  | highIntensity
  deriving DecidableEq, Repr

namespace Attribute

/-- The attributes in the order in which their letters are written. -/
def all : List Attribute := [bold, dim, underline, blink, reverse, strikethrough, italic, highIntensity]

theorem mem_all (a : Attribute) : a ∈ all := by cases a <;> decide

/-- The letter of an attribute. -/
def letter : Attribute → Char
  | bold => 'B'
  | dim => 'D'
  | underline => 'U'
  | blink => 'L'
  | reverse => 'R'
  | strikethrough => 'S'
  | italic => 'I'
  | highIntensity => 'H'

/-- The attribute that a letter of either case names. -/
def ofLetter? (c : Char) : Option Attribute := all.find? fun a => a.letter = c.toUpper

/-- The attributes with SGR codes, in the order in which the codes are written, with the code that switches each on and
the code that switches it off. -/
def codes : List (Attribute × Nat × Nat) :=
  [(bold, 1, 22), (dim, 2, 22), (italic, 3, 23), (underline, 4, 24), (blink, 5, 25), (reverse, 7, 27),
    (strikethrough, 9, 29)]

end Attribute

/-- What is said of each attribute: on, off or nothing. -/
@[ext] structure Flags where
  get : Attribute → Option Bool

namespace Flags

/-- Nothing is said. -/
def none : Flags := ⟨fun _ => .none⟩

/-- Every attribute is off. -/
def allOff : Flags := ⟨fun _ => some false⟩

instance : Inhabited Flags := ⟨none⟩

instance : DecidableEq Flags := fun f g =>
  if h : ∀ a ∈ Attribute.all, f.get a = g.get a then
    isTrue (Flags.ext (funext fun a => h a a.mem_all))
  else isFalse fun e => h fun _ _ => e ▸ rfl

/-- Says that an attribute is on or off. -/
def set (f : Flags) (a : Attribute) (on : Bool) : Flags := ⟨fun b => if b = a then some on else f.get b⟩

/-- Lays `g` over `f`: where `g` says nothing, `f` stays. -/
def merge (f g : Flags) : Flags := ⟨fun a => (g.get a).or (f.get a)⟩

/-- Nothing is said of any attribute. -/
def isEmpty (f : Flags) : Bool := f = none

/-- Reads one letter. -/
def apply (f : Flags) (c : Char) : Flags :=
  match Attribute.ofLetter? c with
  | some a => f.set a c.isUpper
  | .none => f

/-- Reads the letters of a text. -/
def applyAll (f : Flags) (s : Text) : Flags := s.foldl apply f

/-- Reads a flags segment without blanks around it. -/
def parseTrimmed : Text → Flags
  | '-' :: s => allOff.applyAll s
  | s => none.applyAll s

/-- Reads a flags segment. -/
def parse (s : Text) : Flags := parseTrimmed s.trim

/-- The letters of the flags: upper case for on, lower case for off. -/
def letters (f : Flags) : Text :=
  Attribute.all.filterMap fun a => (f.get a).map fun on => if on then a.letter else a.letter.toLower

/-- The SGR codes that switch attributes off. Two attributes share a code, which is written once. -/
def offCodes (f : Flags) : List Nat :=
  ((Attribute.codes.filter fun (a, _, _) => f.get a = some false).map fun (_, _, off) => off).eraseDups

/-- The SGR codes that switch attributes on. -/
def onCodes (f : Flags) : List Nat :=
  (Attribute.codes.filter fun (a, _, _) => f.get a = some true).map fun (_, on, _) => on

/-! ## Laying flags over flags -/

@[simp] theorem get_merge (f g : Flags) (a : Attribute) : (f.merge g).get a = (g.get a).or (f.get a) := rfl

@[simp] theorem merge_none (f : Flags) : f.merge none = f := by ext1; funext a; simp [none]

theorem merge_assoc (f g h : Flags) : (f.merge g).merge h = f.merge (g.merge h) := by
  ext1; funext a; simp [Option.or_assoc]

theorem apply_merge (f g : Flags) (c : Char) : (f.merge g).apply c = f.merge (g.apply c) := by
  unfold apply
  split
  · ext1; funext a
    simp only [set, merge]
    split <;> simp
  · rfl

/-- Reading letters after flags is laying what the letters say over the flags. -/
theorem applyAll_eq_merge (f : Flags) (s : Text) : f.applyAll s = f.merge (none.applyAll s) := by
  have (g : Flags) : (f.merge g).applyAll s = f.merge (g.applyAll s) := by
    unfold applyAll
    induction s generalizing g with
    | nil => rfl
    | cons c s ih => simp only [List.foldl_cons, apply_merge, ih]
  simpa using this none

end Flags
end TerminalMarkup
