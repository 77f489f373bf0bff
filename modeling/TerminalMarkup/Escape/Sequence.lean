import TerminalMarkup.Sgr

/-!
# Complete escape sequences

`Escape.removeSequences` deletes the escape sequences of a text in one pass from left to right.

* Operating system commands (`ESC ]`) and device control strings (`ESC P`) are deleted up to their terminator, or to the
  end of the text.
* All other sequences are recognised by a small automaton, which starts behind `ESC` or behind the control character
  U+009B. The text is deleted up to the last character that led into a final state. What the automaton has read beyond
  that is kept, and is not looked at again in the same pass; the character that stops it is looked at again.

`removeSequences_sublist` says that a pass only deletes.
-/

namespace TerminalMarkup

namespace Escape

/-- The control character that introduces a control sequence by itself. -/
def controlIntroducer : Char := '\u009b'

/-- The control character that ends a string. -/
def stringTerminator : Char := '\u009c'

/-- The bell, which ends an operating system command. -/
def bell : Char := '\u0007'

/-! ## The automaton -/

/-- What the automaton has read of a sequence. -/
inductive State
  /-- The introducer. -/
  | start
  /-- A parenthesis, which selects a character set. -/
  | charset
  /-- The character set. -/
  | charsetDone
  /-- Intermediate characters. -/
  | intermediate
  /-- One digit of a parameter. -/
  | digit1
  | digit2
  | digit3
  | digit4
  /-- Five digits of a parameter. -/
  | digit5
  /-- A separator of parameters. -/
  | separator
  /-- The final character. -/
  | done
  deriving DecidableEq, Repr

/-- A character that ends a sequence. -/
def isFinalChar (c : Char) : Bool :=
  ('A' ≤ c ∧ c ≤ 'P') ∨ ('f' ≤ c ∧ c ≤ 'n') ∨ c ∈ ['R', 'Z', 'c', 'q', 'r', 'y', '=', '>', '<']

/-- The state after a digit; `low` tells whether it is at most two. -/
def State.afterDigit? (low : Bool) : State → Option State
  | start | intermediate | separator => some .digit1
  | charset => if low then some .charsetDone else some .digit1
  | digit1 => some .digit2
  | digit2 => some .digit3
  | digit3 => some .digit4
  | digit4 => some .digit5
  | charsetDone | digit5 | done => none

/-- The state after a character, unless the automaton stops in front of it. -/
def State.next? (s : State) (c : Char) : Option State :=
  if c.isDigit then s.afterDigit? (c ≤ '2')
  else if c = '(' ∨ c = ')' then
    match s with
    | start => some .charset
    | charset | intermediate => some .intermediate
    | _ => none
  else if c = '[' ∨ c = '#' ∨ c = '?' then
    match s with
    | start | charset | intermediate => some .intermediate
    | _ => none
  else if c = ';' then
    match s with
    | start | charset | intermediate => some .intermediate
    | digit1 | digit2 | digit3 | digit4 | separator => some .separator
    | _ => none
  else if isFinalChar c then
    match s with
    | charsetDone | digit5 | done => none
    | _ => some .done
  else none

/-- A sequence may end in the state. -/
def State.isFinal : State → Bool
  | charsetDone | digit1 | digit2 | digit3 | digit4 | digit5 | done => true
  | start | charset | intermediate | separator => false

/-- Runs the automaton. The first part of the result is what is kept: `kept`, in reverse, and what was read after the
last final state. The second part is what is left to look at. -/
def run (s : State) (kept : Text) : Text → Text × Text
  | [] => (kept.reverse, [])
  | c :: rest =>
    match s.next? c with
    | none => (kept.reverse, c :: rest)
    | some s' => run s' (if s'.isFinal then [] else c :: kept) rest

/-! ## Strings -/

/-- What follows an operating system command. -/
def afterCommand : Text → Text
  | [] => []
  | c :: s =>
    if c = bell ∨ c = stringTerminator then s
    else if c = escape then
      match s with
      | '\\' :: s => s
      | s => afterCommand s
    else afterCommand s

/-- What follows a device control string. -/
def afterControlString : Text → Text
  | [] => []
  | c :: s =>
    if c = stringTerminator then s
    else if c = escape then
      match s with
      | [] => []
      | c' :: s' =>
        if c' = '\\' then s' else if c' = escape then afterControlString s' else afterControlString (c' :: s')
    else afterControlString s
termination_by s => s.length

/-! ## Deletions -/

theorem run_sublist (s : State) (kept rest : Text) :
    ((run s kept rest).1 ++ (run s kept rest).2).Sublist (kept.reverse ++ rest) := by
  induction rest generalizing s kept with
  | nil => simp [run]
  | cons c rest ih =>
    simp only [run]
    split
    · exact List.Sublist.refl _
    · next s' _ =>
      refine (ih s' _).trans ?_
      split
      · exact (List.sublist_cons_self c rest).trans (List.sublist_append_right kept.reverse _)
      · simp

theorem run_snd_length_le (s : State) (kept rest : Text) : (run s kept rest).2.length ≤ rest.length := by
  induction rest generalizing s kept with
  | nil => simp [run]
  | cons c rest ih =>
    simp only [run]
    split
    · simp
    · exact Nat.le_succ_of_le (ih _ _)

theorem afterCommand_sublist : ∀ s : Text, (afterCommand s).Sublist s
  | [] => List.Sublist.refl _
  | c :: s => by
    unfold afterCommand
    split
    · exact List.sublist_cons_self c s
    · split
      · split
        · exact (List.sublist_cons_self _ _).trans (List.sublist_cons_self _ _)
        · exact (afterCommand_sublist s).trans (List.sublist_cons_self c s)
      · exact (afterCommand_sublist s).trans (List.sublist_cons_self c s)

theorem afterControlString_sublist : ∀ s : Text, (afterControlString s).Sublist s
  | [] => by simp [afterControlString]
  | [c] => by
    rw [afterControlString]
    split
    · exact List.sublist_cons_self c _
    · split
      · exact List.sublist_cons_self c _
      · simp [afterControlString]
  | c :: c' :: s => by
    rw [afterControlString]
    split
    · exact List.sublist_cons_self c _
    · split
      · split
        · exact (List.sublist_cons_self c' s).trans (List.sublist_cons_self c _)
        · split
          · exact (afterControlString_sublist s).trans
              ((List.sublist_cons_self c' s).trans (List.sublist_cons_self c _))
          · exact (afterControlString_sublist (c' :: s)).trans (List.sublist_cons_self c _)
      · exact (afterControlString_sublist (c' :: s)).trans (List.sublist_cons_self c _)
termination_by s => s.length

/-- Looks at a character: the text that is kept, and what is left to look at. -/
def scan (c : Char) (s : Text) : Text × Text :=
  if c = escape then
    match s with
    | ']' :: s' => ([], afterCommand s')
    | 'P' :: s' => ([], afterControlString s')
    | _ => run .start [c] s
  else if c = controlIntroducer then run .start [c] s
  else ([c], s)

theorem scan_sublist (c : Char) (s : Text) : ((scan c s).1 ++ (scan c s).2).Sublist (c :: s) := by
  unfold scan
  split
  · split
    · exact (afterCommand_sublist _).trans ((List.sublist_cons_self _ _).trans (List.sublist_cons_self _ _))
    · exact (afterControlString_sublist _).trans ((List.sublist_cons_self _ _).trans (List.sublist_cons_self _ _))
    · exact run_sublist .start [c] s
  · split
    · exact run_sublist .start [c] s
    · exact List.Sublist.refl _

theorem scan_snd_length_le (c : Char) (s : Text) : (scan c s).2.length ≤ s.length := by
  unfold scan
  split
  · split
    · exact Nat.le_succ_of_le (afterCommand_sublist _).length_le
    · exact Nat.le_succ_of_le (afterControlString_sublist _).length_le
    · exact run_snd_length_le .start [c] s
  · split
    · exact run_snd_length_le .start [c] s
    · exact Nat.le_refl _

/-- Deletes the escape sequences that one pass from left to right finds. -/
def removeSequences : Text → Text
  | [] => []
  | c :: s => (scan c s).1 ++ removeSequences (scan c s).2
termination_by s => s.length
decreasing_by exact Nat.lt_succ_of_le (scan_snd_length_le c s)

/-- A pass only deletes characters. -/
theorem removeSequences_sublist (s : Text) : (removeSequences s).Sublist s := by
  fun_induction removeSequences s with
  | case1 => exact List.Sublist.refl _
  | case2 c s ih => exact ((List.Sublist.refl _).append ih).trans (scan_sublist c s)

end Escape
end TerminalMarkup
