import TerminalMarkup.Escape.Remnant
import TerminalMarkup.Escape.Sequence
import TerminalMarkup.Token

/-!
# Stripping

Deleting a sequence can join the text around it to another one. `stripEscapes` therefore repeats its deletions until
nothing changes, and `strip` does the same with tags and escapes together.

* `stripEscapes_stable` and `strip_stable` say that the results hold nothing more to delete,
* `stripEscapes_sublist` and `strip_sublist` say that nothing else has been changed.
-/

namespace TerminalMarkup

namespace Escape

/-- Deletes the sequences and remnants that one pass finds, and every escape character that is left. -/
def removeOnce (s : Text) : Text := (removeRemnants (removeSequences s)).filter (· ≠ escape)

theorem removeOnce_sublist (s : Text) : (removeOnce s).Sublist s :=
  List.filter_sublist.trans ((removeRemnants_sublist _).trans (removeSequences_sublist s))

end Escape

theorem Text.shrink_sublist {f : Text → Text} (hf : ∀ s, (f s).Sublist s) (s : Text) : (Text.shrink f s).Sublist s := by
  fun_induction Text.shrink f s with
  | case1 s h ih => exact ih.trans (hf s)
  | case2 s h => exact List.Sublist.refl s

/-- A text without escape sequences and remnants. -/
def stripEscapes (s : Text) : Text := Text.shrink Escape.removeOnce s

theorem stripEscapes_sublist (s : Text) : (stripEscapes s).Sublist s := Text.shrink_sublist Escape.removeOnce_sublist s

theorem stripEscapes_stable (s : Text) : Escape.removeOnce (stripEscapes s) = stripEscapes s :=
  Text.shrink_stable Escape.removeOnce_sublist s

/-- A text without tags, escape sequences and remnants. -/
def strip (d : Delimiters) (s : Text) : Text := Text.shrink (fun s => stripEscapes (stripTags d s)) s

theorem stripOnce_sublist (d : Delimiters) (s : Text) : (stripEscapes (stripTags d s)).Sublist s :=
  (stripEscapes_sublist _).trans (stripTags_sublist d s)

theorem strip_sublist (d : Delimiters) (s : Text) : (strip d s).Sublist s :=
  Text.shrink_sublist (stripOnce_sublist d) s

theorem strip_stable (d : Delimiters) (s : Text) : stripEscapes (stripTags d (strip d s)) = strip d s :=
  Text.shrink_stable (stripOnce_sublist d) s

end TerminalMarkup
