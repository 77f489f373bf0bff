import TerminalMarkup.Escape.Sequence

/-!
# One pass as a machine

`Escape.removeSequences` looks ahead as far as a sequence goes. The same pass is a machine that takes one character at a
time (`Escape.Phase.step`): it is outside of sequences, in the automaton, or in a string, and writes what is kept as
soon as that is certain.

* `removeSequences_eq_scan`: the pass is a run of the machine;
* `Phase.scan_append`: a run over two texts is a run over the first and, from the phase it ends in, over the second;
* `Phase.scan_sgr`: an SGR sequence interrupts whatever the machine is in, and leaves no trace where the machine is at
  rest (`Phase.scan_sgr_of_atRest`).
-/

namespace TerminalMarkup

namespace Escape

/-- The automaton stops in front of every character. -/
def State.isClosed : State → Bool
  | charsetDone | digit5 | done => true
  | _ => false

theorem State.next?_of_isClosed {q : State} (h : q.isClosed = true) (c : Char) : q.next? c = none := by
  have hq : q = charsetDone ∨ q = digit5 ∨ q = done := by
    cases q <;> simp [isClosed] at h ⊢
  unfold next?
  rcases hq with rfl | rfl | rfl <;> simp only [afterDigit?, ite_self]

theorem State.isFinal_of_isClosed {q : State} (h : q.isClosed = true) : q.isFinal = true := by
  cases q <;> simp [isClosed, isFinal] at h ⊢

/-- Where a pass is between two characters. -/
inductive Phase
  /-- Outside of sequences. -/
  | ground
  /-- Behind an escape character. -/
  | introduced
  /-- In the automaton; `kept`, in reverse, is what is kept when the automaton stops. -/
  | sequence (q : State) (kept : Text)
  /-- In an operating system command, perhaps behind an escape character. -/
  | command (escaped : Bool)
  /-- In a device control string, perhaps behind an escape character. -/
  | controlString (escaped : Bool)
  deriving DecidableEq

namespace Phase

/-! ## Steps -/

/-- What is written, and the next phase, after a character outside of sequences. -/
def look (c : Char) : Text × Phase :=
  if c = escape then ([], introduced)
  else if c = controlIntroducer then ([], sequence .start [c])
  else ([c], ground)

/-- What is written, and the next phase, after a character in the automaton. -/
def advance (q : State) (kept : Text) (c : Char) : Text × Phase :=
  match q.next? c with
  | none => (kept.reverse ++ (look c).1, (look c).2)
  | some q' => ([], if q'.isClosed then ground else sequence q' (if q'.isFinal then [] else c :: kept))

/-- What is written, and the next phase, after a character. -/
def step : Phase → Char → Text × Phase
  | ground, c => look c
  | introduced, c =>
    if c = ']' then ([], command false)
    else if c = 'P' then ([], controlString false)
    else advance .start [escape] c
  | sequence q kept, c => advance q kept c
  | command escaped, c =>
    if c = bell ∨ c = stringTerminator ∨ escaped = true ∧ c = '\\' then ([], ground)
    else ([], command (c = escape))
  | controlString escaped, c =>
    if c = stringTerminator ∨ escaped = true ∧ c = '\\' then ([], ground)
    else ([], controlString (!escaped && c = escape))

/-- What is kept of an unfinished sequence. -/
def flush : Phase → Text
  | introduced => [escape]
  | sequence _ kept => kept.reverse
  | ground | command _ | controlString _ => []

/-- What a run over a text writes, to the end of the text. -/
def scan : Phase → Text → Text
  | φ, [] => φ.flush
  | φ, c :: s => (φ.step c).1 ++ (φ.step c).2.scan s

/-- What a run over a text writes when the text goes on. -/
def emit : Phase → Text → Text
  | _, [] => []
  | φ, c :: s => (φ.step c).1 ++ (φ.step c).2.emit s

/-- The phase after a text. -/
def after : Phase → Text → Phase
  | φ, [] => φ
  | φ, c :: s => (φ.step c).2.after s

theorem scan_append (φ : Phase) (s t : Text) : φ.scan (s ++ t) = φ.emit s ++ (φ.after s).scan t := by
  induction s generalizing φ with
  | nil => rfl
  | cons c s ih => rw [List.cons_append, scan, ih, emit, after, List.append_assoc]

/-! ## The pass is a run -/

/-- What the pass keeps of a text in the given phase. -/
def resume : Phase → Text → Text
  | ground, s => removeSequences s
  | introduced, s => (Escape.scan escape s).1 ++ removeSequences (Escape.scan escape s).2
  | sequence q kept, s => (run q kept s).1 ++ removeSequences (run q kept s).2
  | command escaped, s => removeSequences (afterCommand (if escaped then escape :: s else s))
  | controlString escaped, s => removeSequences (afterControlString (if escaped then escape :: s else s))

theorem resume_look (c : Char) (s : Text) : removeSequences (c :: s) = (look c).1 ++ (look c).2.resume s := by
  rw [removeSequences, look]
  by_cases hc : c = escape
  · subst hc
    simp [resume]
  · by_cases hi : c = controlIntroducer
    · simp [hi, Escape.scan, resume, show controlIntroducer ≠ escape by decide]
    · simp [hc, hi, Escape.scan, resume]

theorem run_of_isClosed {q : State} (h : q.isClosed = true) (kept s : Text) : run q kept s = (kept.reverse, s) := by
  cases s with
  | nil => rfl
  | cons c s => simp [run, State.next?_of_isClosed h c]

theorem resume_advance (q : State) (kept : Text) (c : Char) (s : Text) :
    (run q kept (c :: s)).1 ++ removeSequences (run q kept (c :: s)).2
      = (advance q kept c).1 ++ (advance q kept c).2.resume s := by
  rw [run, advance]
  cases hq : q.next? c with
  | none => simp [resume_look]
  | some q' =>
    by_cases hc : q'.isClosed = true
    · simp [hc, State.isFinal_of_isClosed hc, run_of_isClosed hc, resume]
    · simp [hc, resume]

theorem resume_introduced (c : Char) (s : Text) :
    introduced.resume (c :: s) = (introduced.step c).1 ++ (introduced.step c).2.resume s := by
  by_cases hb : c = ']'
  · subst hb
    simp [resume, step, Escape.scan]
  · by_cases hp : c = 'P'
    · subst hp
      simp [resume, step, Escape.scan]
    · have hs : Escape.scan escape (c :: s) = run .start [escape] (c :: s) := by
        simp [Escape.scan, hb, hp]
      rw [resume, hs, resume_advance]
      simp [step, hb, hp]

/-- Behind an escape character only a backslash is read differently. -/
theorem afterCommand_escape_cons (c : Char) (s : Text) :
    afterCommand (escape :: c :: s) = if c = '\\' then s else afterCommand (c :: s) := by
  rw [afterCommand.eq_def]
  simp only [show ¬ (escape = bell ∨ escape = stringTerminator) by decide, if_false, if_true]
  split
  · next h => cases h; rfl
  · next h =>
    rw [if_neg]
    intro e
    exact h s (by rw [e])

theorem resume_command_false (c : Char) (s : Text) :
    removeSequences (afterCommand (c :: s)) = ((command false).step c).1 ++ ((command false).step c).2.resume s := by
  by_cases ht : c = bell ∨ c = stringTerminator
  · have ht' : c = bell ∨ c = stringTerminator ∨ false = true ∧ c = '\\' := by
      rcases ht with h | h
      · exact .inl h
      · exact .inr (.inl h)
    rw [afterCommand.eq_def]
    simp only [step, if_pos ht, if_pos ht']
    rfl
  · have ht' : ¬ (c = bell ∨ c = stringTerminator ∨ false = true ∧ c = '\\') := by simpa using ht
    simp only [step, if_neg ht', List.nil_append, resume]
    by_cases he : c = escape
    · simp [he]
    · rw [afterCommand.eq_def]
      simp [if_neg ht, he]

theorem resume_command (escaped : Bool) (c : Char) (s : Text) :
    (command escaped).resume (c :: s) = ((command escaped).step c).1 ++ ((command escaped).step c).2.resume s := by
  cases escaped with
  | false => exact resume_command_false c s
  | true =>
    simp only [resume, if_true, afterCommand_escape_cons]
    by_cases hb : c = '\\'
    · simp [hb, step]
    · have hs : (command true).step c = (command false).step c := by simp [step, hb]
      rw [if_neg hb, resume_command_false, hs]
      rfl

/-- Two escape characters in a control string are read as a pair. -/
theorem afterControlString_escape_cons (c : Char) (s : Text) :
    afterControlString (escape :: c :: s)
      = if c = '\\' then s else if c = escape then afterControlString s else afterControlString (c :: s) := by
  rw [afterControlString]
  simp [show escape ≠ stringTerminator by decide]

theorem resume_controlString_false (c : Char) (s : Text) :
    removeSequences (afterControlString (c :: s))
      = ((controlString false).step c).1 ++ ((controlString false).step c).2.resume s := by
  by_cases ht : c = stringTerminator
  · rw [afterControlString.eq_def]
    simp [step, ht, resume]
  · by_cases he : c = escape
    · simp [step, he, resume, show escape ≠ stringTerminator by decide]
    · rw [afterControlString.eq_def]
      simp [step, ht, he, resume]

theorem resume_controlString (escaped : Bool) (c : Char) (s : Text) :
    (controlString escaped).resume (c :: s)
      = ((controlString escaped).step c).1 ++ ((controlString escaped).step c).2.resume s := by
  cases escaped with
  | false => exact resume_controlString_false c s
  | true =>
    simp only [resume, if_true, afterControlString_escape_cons]
    by_cases hb : c = '\\'
    · simp [hb, step]
    · by_cases he : c = escape
      · simp [he, step, show escape ≠ '\\' by decide, show escape ≠ stringTerminator by decide]
      · have hs : (controlString true).step c = (controlString false).step c := by simp [step, hb, he]
        rw [if_neg hb, if_neg he, resume_controlString_false, hs]
        rfl

/-- **A step of the machine** is a step of the pass. -/
theorem resume_cons (φ : Phase) (c : Char) (s : Text) : φ.resume (c :: s) = (φ.step c).1 ++ (φ.step c).2.resume s := by
  cases φ with
  | ground => exact resume_look c s
  | introduced => exact resume_introduced c s
  | sequence q kept => exact resume_advance q kept c s
  | command escaped => exact resume_command escaped c s
  | controlString escaped => exact resume_controlString escaped c s

theorem resume_nil (φ : Phase) : φ.resume [] = φ.flush := by
  cases φ with
  | ground => simp [resume, flush, removeSequences]
  | introduced => simp [resume, flush, Escape.scan, run, removeSequences]
  | sequence q kept => simp [resume, flush, run, removeSequences]
  | command escaped => cases escaped <;> simp [resume, flush, afterCommand, removeSequences]
  | controlString escaped => cases escaped <;> simp [resume, flush, afterControlString, removeSequences]

theorem resume_eq_scan (φ : Phase) (s : Text) : φ.resume s = φ.scan s := by
  induction s generalizing φ with
  | nil => exact resume_nil φ
  | cons c s ih => rw [resume_cons, ih, scan]

/-! ## SGR sequences -/

/-- The machine is between two sequences, or inside of a string and not behind an escape character. -/
def atRest : Phase → Bool
  | ground => true
  | introduced | sequence _ _ => false
  | command escaped | controlString escaped => !escaped

/-- The phase after an SGR sequence. -/
def interrupted : Phase → Phase
  | ground | introduced | sequence _ _ => ground
  | command _ => command false
  | controlString _ => controlString false

theorem flush_of_atRest {φ : Phase} (h : φ.atRest = true) : φ.flush = [] := by
  cases φ <;> simp [atRest] at h <;> rfl

theorem interrupted_of_atRest {φ : Phase} (h : φ.atRest = true) : φ.interrupted = φ := by
  cases φ <;> simp [atRest] at h <;> simp [interrupted, h]

/-- The characters of an SGR sequence behind the escape character. -/
theorem mem_params {ns : List Nat} {c : Char} (h : c ∈ Sgr.params ns) : c.isDigit = true ∨ c = ';' := by
  have digit {n : Nat} (h : c ∈ Text.ofNat n) : c.isDigit = true ∨ c = ';' :=
    .inl (Nat.isDigit_of_mem_toDigits (by decide) (by decide) h)
  fun_induction Sgr.params ns with
  | case1 => cases h
  | case2 n => exact digit h
  | case3 n ns hns ih =>
    rcases List.mem_append.1 h with h | h
    · exact digit h
    · rcases List.mem_cons.1 h with h | h
      · exact .inr h
      · exact ih h

/-! ### In the automaton -/

theorem scan_sequence_cons {p q : State} {c : Char} (h : p.next? c = some q) (kept s : Text) :
    (sequence p kept).scan (c :: s)
      = (if q.isClosed then ground else sequence q (if q.isFinal then [] else c :: kept)).scan s := by
  simp only [scan, step, advance, h, List.nil_append]

theorem next?_digit {q : State} {c : Char} (h : c.isDigit = true) : q.next? c = q.afterDigit? (c ≤ '2') := by
  unfold State.next?
  exact if_pos h

/-- A digit of a parameter; nothing that came before it is kept. -/
theorem scan_digit {p q : State} (h : ∀ low, p.afterDigit? low = some q) (hf : q.isClosed = false ∧ q.isFinal = true)
    {c : Char} (hc : c.isDigit = true) (kept s : Text) :
    (sequence p kept).scan (c :: s) = (sequence q []).scan s := by
  rw [scan_sequence_cons ((next?_digit hc).trans (h _)), hf.1, hf.2]
  rfl

/-- The states after one to four digits of a parameter. -/
def IsParameter (q : State) : Prop := q = .digit1 ∨ q = .digit2 ∨ q = .digit3 ∨ q = .digit4

/-- One to four digits behind an introducer or a separator. -/
theorem scan_digits {q : State} (hq : q = .intermediate ∨ q = .separator) (kept s : Text) :
    ∀ {ds : Text}, ds ≠ [] → ds.length ≤ 4 → (∀ c ∈ ds, c.isDigit = true) →
      ∃ q', IsParameter q' ∧ (sequence q kept).scan (ds ++ s) = (sequence q' []).scan s := by
  have h1 : ∀ low, q.afterDigit? low = some .digit1 := by
    rcases hq with rfl | rfl
    · exact fun _ => rfl
    · exact fun _ => rfl
  have h2 : ∀ low, State.afterDigit? low .digit1 = some .digit2 := fun _ => rfl
  have h3 : ∀ low, State.afterDigit? low .digit2 = some .digit3 := fun _ => rfl
  have h4 : ∀ low, State.afterDigit? low .digit3 = some .digit4 := fun _ => rfl
  intro ds hne hlen hd
  match ds with
  | [] => exact absurd rfl hne
  | [a] =>
    refine ⟨.digit1, .inl rfl, ?_⟩
    exact scan_digit h1 ⟨rfl, rfl⟩ (hd a (by simp)) kept s
  | [a, b] =>
    refine ⟨.digit2, .inr (.inl rfl), ?_⟩
    refine (scan_digit h1 ⟨rfl, rfl⟩ (hd a (by simp)) kept _).trans ?_
    exact scan_digit h2 ⟨rfl, rfl⟩ (hd b (by simp)) [] s
  | [a, b, c] =>
    refine ⟨.digit3, .inr (.inr (.inl rfl)), ?_⟩
    refine (scan_digit h1 ⟨rfl, rfl⟩ (hd a (by simp)) kept _).trans ?_
    refine (scan_digit h2 ⟨rfl, rfl⟩ (hd b (by simp)) [] _).trans ?_
    exact scan_digit h3 ⟨rfl, rfl⟩ (hd c (by simp)) [] s
  | [a, b, c, d] =>
    refine ⟨.digit4, .inr (.inr (.inr rfl)), ?_⟩
    refine (scan_digit h1 ⟨rfl, rfl⟩ (hd a (by simp)) kept _).trans ?_
    refine (scan_digit h2 ⟨rfl, rfl⟩ (hd b (by simp)) [] _).trans ?_
    refine (scan_digit h3 ⟨rfl, rfl⟩ (hd c (by simp)) [] _).trans ?_
    exact scan_digit h4 ⟨rfl, rfl⟩ (hd d (by simp)) [] s
  | _ :: _ :: _ :: _ :: _ :: _ =>
    simp only [List.length_cons] at hlen
    omega

/-- A parameter of at most four digits. -/
theorem scan_ofNat {q : State} (hq : q = .intermediate ∨ q = .separator) (kept : Text) {n : Nat} (hn : n < 10000)
    (s : Text) : ∃ q', IsParameter q' ∧ (sequence q kept).scan (Text.ofNat n ++ s) = (sequence q' []).scan s :=
  scan_digits hq kept s Nat.toDigits_ne_nil ((Nat.length_toDigits_le_iff (by decide) (by decide)).2 hn)
    fun _ hc => Nat.isDigit_of_mem_toDigits (by decide) (by decide) hc

/-- The numbers of a sequence and its final character. The induction goes from one separator to the next. -/
theorem scan_params {ns : List Nat} (hne : ns ≠ []) (hlt : ∀ n ∈ ns, n < 10000) {q : State}
    (hq : q = .intermediate ∨ q = .separator) (kept s : Text) :
    (sequence q kept).scan (Sgr.params ns ++ 'm' :: s) = ground.scan s := by
  fun_induction Sgr.params ns generalizing q kept with
  | case1 => exact absurd rfl hne
  | case2 n =>
    obtain ⟨q', hq', h⟩ := scan_ofNat hq kept (hlt n (by simp)) ('m' :: s)
    rw [h]
    rcases hq' with rfl | rfl | rfl | rfl <;> exact scan_sequence_cons (q := .done) (by decide) [] s
  | case3 n ns hns ih =>
    obtain ⟨q', hq', h⟩ := scan_ofNat hq kept (hlt n (by simp)) (';' :: (Sgr.params ns ++ 'm' :: s))
    have hsep : q'.next? ';' = some .separator := by
      rcases hq' with rfl | rfl | rfl | rfl <;> decide
    rw [List.append_assoc, List.cons_append, h, scan_sequence_cons hsep]
    exact ih hns (fun m hm => hlt m (List.mem_cons_of_mem _ hm)) (.inr rfl) [';']

/-- An escape character starts a new sequence, whatever stands before it outside of strings. -/
theorem scan_escape {φ : Phase} (h : φ.interrupted = ground) (s : Text) :
    φ.scan (escape :: s) = φ.flush ++ introduced.scan s := by
  cases φ with
  | ground => rfl
  | introduced => rfl
  | sequence q kept =>
    have hq : q.next? escape = none := by cases q <;> decide
    simp [scan, step, advance, hq, look, flush]
  | command escaped => cases h
  | controlString escaped => cases h

/-! ### In a string -/

/-- A character that means nothing inside of a string. -/
def IsPlain (c : Char) : Prop := c ≠ escape ∧ c ≠ bell ∧ c ≠ stringTerminator

instance (c : Char) : Decidable (IsPlain c) := inferInstanceAs (Decidable (_ ∧ _))

theorem isPlain_of_isDigit {c : Char} (h : c.isDigit = true) : IsPlain c := by
  refine ⟨?_, ?_, ?_⟩ <;> (rintro rfl; revert h; decide)

theorem scan_command {s : Text} (h : ∀ c ∈ s, IsPlain c) (t : Text) :
    (command false).scan (s ++ t) = (command false).scan t := by
  induction s with
  | nil => rfl
  | cons c s ih =>
    obtain ⟨he, hb, ht⟩ := h c List.mem_cons_self
    rw [List.cons_append, scan]
    simp only [step, hb, ht, he, false_or, Bool.false_eq_true, false_and, if_false, List.nil_append, decide_false]
    exact ih fun c hc => h c (List.mem_cons_of_mem _ hc)

theorem scan_controlString {s : Text} (h : ∀ c ∈ s, IsPlain c) (t : Text) :
    (controlString false).scan (s ++ t) = (controlString false).scan t := by
  induction s with
  | nil => rfl
  | cons c s ih =>
    obtain ⟨he, -, ht⟩ := h c List.mem_cons_self
    rw [List.cons_append, scan]
    simp only [step, ht, he, false_or, Bool.false_eq_true, false_and, if_false, List.nil_append, decide_false,
      Bool.and_false]
    exact ih fun c hc => h c (List.mem_cons_of_mem _ hc)

/-! ### Everywhere -/

/-- **An SGR sequence interrupts**: what the machine was in is kept, or lost in a string, and the sequence leaves no
trace of its own. -/
theorem scan_sgr (φ : Phase) {ns : List Nat} (hne : ns ≠ []) (hlt : ∀ n ∈ ns, n < 10000) (s : Text) :
    φ.scan (Sgr.sequence ns ++ s) = φ.flush ++ φ.interrupted.scan s := by
  have houtside (h : φ.interrupted = ground) : φ.scan (Sgr.sequence ns ++ s) = φ.flush ++ φ.interrupted.scan s := by
    have hb : (introduced).scan ('[' :: (Sgr.params ns ++ 'm' :: s)) = ground.scan s :=
      scan_params hne hlt (.inl rfl) ['[', escape] s
    rw [h, ← hb, ← scan_escape h]
    simp [Sgr.sequence]
  have hplain : ∀ c ∈ Sgr.params ns ++ ['m'], IsPlain c := by
    intro c hc
    rcases List.mem_append.1 hc with hc | hc
    · rcases mem_params hc with hc | rfl
      · exact isPlain_of_isDigit hc
      · decide
    · rw [List.mem_singleton.1 hc]
      decide
  cases φ with
  | ground => exact houtside rfl
  | introduced => exact houtside rfl
  | sequence q kept => exact houtside rfl
  | command escaped =>
    have hstart (t : Text) : (command escaped).scan (escape :: '[' :: t) = (command false).scan t := by
      cases escaped <;> rfl
    exact (hstart _).trans (scan_command hplain s)
  | controlString escaped =>
    have hstart (t : Text) : (controlString escaped).scan (escape :: '[' :: t) = (controlString false).scan t := by
      cases escaped <;> rfl
    exact (hstart _).trans (scan_controlString hplain s)

/-- **At rest an SGR sequence leaves no trace.** -/
theorem scan_sgr_of_atRest {φ : Phase} (h : φ.atRest = true) {ns : List Nat} (hne : ns ≠ [])
    (hlt : ∀ n ∈ ns, n < 10000) (s : Text) : φ.scan (Sgr.sequence ns ++ s) = φ.scan s := by
  rw [scan_sgr φ hne hlt, flush_of_atRest h, interrupted_of_atRest h, List.nil_append]

end Phase

/-- **The pass is a run of the machine.** -/
theorem removeSequences_eq_scan (s : Text) : removeSequences s = Phase.ground.scan s := Phase.resume_eq_scan .ground s

end Escape
end TerminalMarkup
