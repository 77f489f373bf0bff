import TerminalMarkup.Text.Width.Table

/-!
# Display width

The number of terminal columns of a text. Characters are read from right to left: what a character adds depends on what
stands to its right, since an emoji sequence or a ligature is as wide as one of its parts.

* `Width.ofChar` is the width of a character on its own,
* `Width.step` says what a character adds in front of a given right side, and what it leaves for its left neighbour,
* `Text.width` sums the steps.
-/

namespace TerminalMarkup

namespace Width

/-- The beginning of the text to the right, as far as the next character to the left depends on it. -/
inductive Follow
  /-- Nothing of consequence. -/
  | plain
  | lineFeed
  /-- A character or sequence shown as emoji. -/
  | emoji
  /-- A skin tone. -/
  | skinTone
  /-- One flag letter. -/
  | flagLetter
  /-- Several flag letters. -/
  | flagLetters
  /-- A joiner in front of an emoji. -/
  | joined
  | joinedKeycap
  | joinedFlagLetter
  | joinedFlagEven
  | joinedFlagOdd
  /-- A joiner after a tag sequence that ends in these numbers of letters and digits. -/
  | joinedTag (letters digits : Nat)
  | alef
  | lamed
  | khmerSubscript
  | bugineseYa
  | bugineseVowel
  | tifinagh
  | tifinaghJoiner
  | lisuTone
  | orkhonI
  | kiratE
  | kiratAi
  deriving DecidableEq

/-- The right side keeps its effect across the marks of a ligature. -/
def Follow.isLigature : Follow → Bool
  | .lamed | .khmerSubscript | .bugineseYa | .bugineseVowel | .tifinagh | .tifinaghJoiner | .lisuTone | .orkhonI
  | .kiratE | .kiratAi => true
  | _ => false

/-- A joiner in front of an emoji or keycap. -/
def Follow.isJoined : Follow → Bool
  | .joined | .joinedKeycap => true
  | _ => false

/-- The variation selectors that change a width. -/
inductive Selector
  | emoji
  | text
  /-- The selector for wide quotation marks. -/
  | quote
  deriving DecidableEq

/-- What a character has to know of the text to its right. -/
structure Right where
  follow : Follow
  selector : Option Selector
  /-- A joiner stands in front of the ligature part. -/
  joiner : Bool
  deriving DecidableEq

namespace Right

/-- The right side that has no effect. -/
def none : Right := ⟨.plain, .none, false⟩

/-- The right side that begins with `follow`. -/
def of (follow : Follow) : Right := ⟨follow, .none, false⟩

/-- The right side behind a variation selector. -/
def select (r : Right) (s : Selector) : Right :=
  if r.follow.isLigature || (s = .emoji && r.follow.isJoined) then { r with selector := some s }
  else ⟨.plain, some s, false⟩

/-- The right side without its selector. -/
def unselect (r : Right) : Right := { r with selector := .none }

end Right

/-- The code point lies between the two. -/
def between (lo hi : Nat) (c : Char) : Bool := lo ≤ c.toNat ∧ c.toNat ≤ hi

/-! ## Single characters -/

/-- The columns of a character on its own. -/
def ofChar (c : Char) : Nat :=
  if c.toNat ≤ 0xA0 then 1
  else if c = '\u17D8' then 3
  else if zeroRanges.contains c then 0
  else if wideRanges.contains c then 2
  else 1

/-- A letter of a flag. -/
def isFlagLetter (c : Char) : Bool := between 0x1F1E6 0x1F1FF c

/-- A skin tone. -/
def isSkinTone (c : Char) : Bool := between 0x1F3FB 0x1F3FF c

/-- What a character is for its left neighbour when nothing to its right matters. -/
def followOf (c : Char) : Right :=
  if c.toNat ≤ 0xA0 then .none
  else if c = '\uFE0F' then Right.none.select .emoji
  else if c = '\uFE0E' then Right.none.select .text
  else if c = '\uFE01' then Right.none.select .quote
  else if isSkinTone c then .of .skinTone
  else if isFlagLetter c then .of .flagLetter
  else if emojiRanges.contains c then .of .emoji
  else if alefRanges.contains c then .of .alef
  else if c = '\u05DC' then .of .lamed
  else if khmerSubscriptRanges.contains c then .of .khmerSubscript
  else if c = '\u1A10' then .of .bugineseYa
  else if tifinaghRanges.contains c then .of .tifinagh
  else if c = '\uA4FC' ∨ c = '\uA4FD' then .of .lisuTone
  else if c.toNat = 0x10C03 then .of .orkhonI
  else if c.toNat = 0x16D67 then .of .kiratE
  else if c.toNat = 0x16D68 then .of .kiratAi
  else .none

/-! ## Sequences -/

/-- A letter of a tag sequence. -/
def isTagLetter (c : Char) : Bool := between 0xE0061 0xE007A c

/-- A digit of a tag sequence. -/
def isTagDigit (c : Char) : Bool := between 0xE0030 0xE0039 c

/-- Emoji sequences: what `c` adds in front of `follow`. -/
def emojiStep? (c : Char) : Follow → Option (Int × Follow)
  | .skinTone =>
    if modifierBaseRanges.contains c then some (0, .emoji) else if c = '\u200D' then some (0, .joined) else .none
  | .flagLetter => if isFlagLetter c then some (1, .flagLetters) else .none
  | .flagLetters =>
    if isFlagLetter c then some (1, .flagLetters) else if c = '\u200D' then some (0, .joined) else .none
  | .emoji => if c = '\u200D' then some (0, .joined) else .none
  | .joined =>
    if c = '\u20E3' then some (0, .joinedKeycap)
    else if isFlagLetter c then some (1, .joinedFlagLetter)
    else if isSkinTone c then some (0, .skinTone)
    else if c.toNat = 0xE007F then some (0, .joinedTag 0 0)
    else if emojiRanges.contains c then some (0, .emoji)
    else .none
  | .joinedFlagLetter => if isFlagLetter c then some (-1, .joinedFlagEven) else .none
  | .joinedFlagOdd => if isFlagLetter c then some (-1, .joinedFlagEven) else .none
  | .joinedFlagEven =>
    if isFlagLetter c then some (3, .joinedFlagOdd) else if c = '\u200D' then some (0, .joined) else .none
  | .joinedTag letters digits =>
    if isTagLetter c ∧ letters < 6 ∧ digits = 0 then some (0, .joinedTag (letters + 1) 0)
    else if isTagDigit c ∧ digits < 3 ∧ (0 < digits ∨ letters ≤ 4) then some (0, .joinedTag letters (digits + 1))
    else if c.toNat = 0x1F3F4 ∧ (digits = 3 ∨ (digits = 0 ∧ 3 ≤ letters)) then some (0, .emoji)
    else .none
  | _ => .none

/-- Ligatures: what `c` adds in front of `follow`, where `joiner` tells whether a joiner stands between them. -/
def ligatureStep? (c : Char) (joiner : Bool) : Follow → Option (Int × Follow)
  | .alef =>
    if lamRanges.contains c then some (0, .plain)
    else if ofChar c = 0 ∧ joiningOpaqueRanges.contains c = false then some (0, .alef)
    else .none
  | .lamed => if joiner ∧ c = '\u05D0' then some (0, .plain) else .none
  | .khmerSubscript => if c = '\u17D2' then some (-1, .plain) else .none
  | .bugineseYa => if joiner ∧ c = '\u1A17' then some (0, .bugineseVowel) else .none
  | .bugineseVowel => if c = '\u1A15' then some (0, .plain) else .none
  | .tifinagh =>
    if c = '\u2D7F' then some (1, .tifinaghJoiner)
    else if joiner ∧ tifinaghRanges.contains c then some (0, .plain)
    else .none
  | .tifinaghJoiner => if tifinaghRanges.contains c then some (-1, .plain) else .none
  | .lisuTone => if between 0xA4F8 0xA4FB c then some (0, .plain) else .none
  | .orkhonI => if joiner ∧ c.toNat = 0x10C32 then some (0, .plain) else .none
  | .kiratE =>
    if c.toNat = 0x16D63 ∨ c.toNat = 0x16D69 then some (0, .plain)
    else if c.toNat = 0x16D67 then some (0, .kiratAi)
    else if c.toNat = 0x16D68 then some (1, .kiratE)
    else .none
  | .kiratAi => if c.toNat = 0x16D63 then some (0, .plain) else .none
  | _ => .none

/-- A quotation mark that has a wide form. -/
def isQuote (c : Char) : Bool := c = '\u2018' ∨ c = '\u2019' ∨ c = '\u201C' ∨ c = '\u201D'

/-- What `c` adds when no selector applies to it. -/
def plainStep (c : Char) (r : Right) : Int × Right :=
  if c.toNat ≤ 0xA0 then
    if c = '\n' then (1, .of .lineFeed)
    else if c = '\r' ∧ r.follow = .lineFeed then (0, .none)
    else (1, .none)
  else if c = '\uFE0F' then (0, r.select .emoji)
  else if c = '\uFE0E' then (0, r.select .text)
  else if c = '\uFE01' then (0, r.select .quote)
  else if r.follow.isLigature ∧ c = '\u200D' then (0, { r with joiner := true })
  else if r.follow.isLigature ∧ ligatureTransparentRanges.contains c then (0, r)
  else
    match emojiStep? c r.follow <|> ligatureStep? c r.joiner r.follow with
    | some (n, follow) => (n, .of follow)
    | .none => (ofChar c, followOf c)

/-- What `c` adds in front of the right side `r`, and the right side for the character before it. -/
def step (c : Char) (r : Right) : Int × Right :=
  match r.selector with
  | some .emoji =>
    if emojiBaseRanges.contains c || emojiRanges.contains c then (if r.follow.isJoined then 0 else 2, .of .emoji)
    else plainStep c r.unselect
  | some .text => if textBaseRanges.contains c then (1, .none) else plainStep c r.unselect
  | some .quote => if isQuote c then (2, .none) else plainStep c r.unselect
  | .none => plainStep c r

/-- The columns of a text, and the right side it forms for a character before it. -/
def measure : Text → Int × Right
  | [] => (0, .none)
  | c :: s =>
    let (total, right) := measure s
    let (n, right') := step c right
    (total + n, right')

end Width

/-- The number of terminal columns of a text. -/
def Text.width (s : Text) : Nat := (Width.measure s).1.toNat

end TerminalMarkup
