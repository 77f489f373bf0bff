import TerminalMarkup.Proofs.Text.Lowercase
import TerminalMarkup.Registry.Name

/-!
# Normal forms of names

The normal form of a name has no underscore at its ends (`Name.strip_normalize`). It may have a blank there: blanks are
stripped before underscores and not again behind them. The names for which this happens are those that are not `Tidy`,
and they are the names whose normal form is not its own normal form (`Name.normalize_normalize_iff`).
-/

namespace TerminalMarkup

namespace Name

variable {name : Text}

/-! ## Underscores -/

/-- No underscores are left to strip from a normal form. -/
theorem strip_normalize (name : Text) : (normalize name).strip isUnderscore = normalize name :=
  (Text.strip_lowercase_iff Lowercase.keeps_underscore).2 (Text.strip_strip _)

theorem head?_normalize_ne (name : Text) : (normalize name).head? ≠ some '_' := by
  intro h
  refine (Text.strip_eq_self_iff.1 (strip_normalize name)).1 ?_
  rw [h]
  rfl

theorem getLast?_normalize_ne (name : Text) : (normalize name).getLast? ≠ some '_' := by
  intro h
  refine (Text.strip_eq_self_iff.1 (strip_normalize name)).2 ?_
  rw [h]
  rfl

/-! ## Blanks -/

/-- There are no blanks within the underscores around the name. -/
def Tidy (name : Text) : Prop := (name.trim.strip isUnderscore).trim = name.trim.strip isUnderscore

instance (name : Text) : Decidable (Tidy name) := inferInstanceAs (Decidable (_ = _))

theorem trim_normalize_iff : (normalize name).trim = normalize name ↔ Tidy name :=
  Text.strip_lowercase_iff Lowercase.keeps_isBlank

/-- A normal form is in lower case, and so only its ends matter for its own normal form. -/
theorem normalize_normalize (name : Text) :
    normalize (normalize name) = (normalize name).trim.strip isUnderscore := by
  rw [normalize.eq_1 (normalize name)]
  refine Text.lowercase_of_isFixed fun c hc => Text.isFixed_of_mem_lowercase (s := name.trim.strip isUnderscore) ?_
  exact ((Text.strip_sublist _).trans (Text.strip_sublist _)).subset hc

/-- The normal form of a normal form is part of it. -/
theorem normalize_normalize_sublist (name : Text) : (normalize (normalize name)).Sublist (normalize name) := by
  rw [normalize_normalize]
  exact (Text.strip_sublist _).trans (Text.strip_sublist _)

/-- **The names whose normal form is final.** -/
theorem normalize_normalize_iff : normalize (normalize name) = normalize name ↔ Tidy name := by
  rw [← trim_normalize_iff, normalize_normalize]
  have htrim : (normalize name).trim.Sublist (normalize name) := Text.strip_sublist _
  have hstrip : ((normalize name).trim.strip isUnderscore).Sublist (normalize name).trim := Text.strip_sublist _
  constructor
  · intro h
    rw [h] at hstrip
    exact htrim.antisymm hstrip
  · intro h
    rw [h, strip_normalize]

/-- Blanks within underscores are left where the underscores are gone. -/
example : normalize "_ x _".toList = " x ".toList ∧ normalize " x ".toList = "x".toList ∧ ¬ Tidy "_ x _".toList := by
  decide +kernel

end Name
end TerminalMarkup
