import TerminalMarkup.Proofs.Widget.Group

/-!
# Groups in widget markup

Every group in widget markup ought to stand for a style. Literal text is escaped segment by segment, so no group lies
inside of one. But a group may begin in one segment and end in a later one, when no tag is written between the two
(`Widget.Joined`): this is the one way for literal text to be read as a style (`Widget.widgetMarkup_groups_iff`).
-/

namespace TerminalMarkup

/-! ## Where a character stands -/

/-- A place in a text that has two parts lies in the one or in the other. -/
theorem append_cons_eq_append {α : Type} {a b u v : List α} {c : α} (h : a ++ c :: b = u ++ v) :
    (∃ w, u = a ++ c :: w ∧ b = w ++ v) ∨ ∃ w, a = u ++ w ∧ v = w ++ c :: b := by
  rcases List.append_eq_append_iff.1 h with ⟨w, rfl, hw⟩ | ⟨w, rfl, rfl⟩
  · cases w with
    | nil => exact .inr ⟨[], by rw [List.append_nil, List.append_nil], hw.symm⟩
    | cons d w =>
      rw [List.cons_append, List.cons.injEq] at hw
      obtain ⟨rfl, rfl⟩ := hw
      exact .inl ⟨w, rfl, rfl⟩
  · exact .inr ⟨w, rfl, rfl⟩

/-- A place in the texts of a list lies in the text of one element. -/
theorem exists_of_flatMap_eq {α β : Type} {f : α → List β} {l : List α} {a b : List β} {c : β}
    (h : l.flatMap f = a ++ c :: b) :
    ∃ l₁ m l₂ p q, l = l₁ ++ m :: l₂ ∧ f m = p ++ c :: q ∧ a = l₁.flatMap f ++ p ∧ b = q ++ l₂.flatMap f := by
  induction l generalizing a with
  | nil => exact absurd h.symm (List.append_ne_nil_of_right_ne_nil a (List.cons_ne_nil c b))
  | cons m l ih =>
    rw [List.flatMap_cons] at h
    rcases append_cons_eq_append h.symm with ⟨w, hm, hb⟩ | ⟨w, rfl, hl⟩
    · exact ⟨[], m, l, a, w, rfl, hm, rfl, hb⟩
    · obtain ⟨l₁, m', l₂, p, q, rfl, hm, rfl, hb⟩ := ih hl
      refine ⟨m :: l₁, m', l₂, p, q, rfl, hm, ?_, hb⟩
      rw [List.flatMap_cons, List.append_assoc]

namespace Widget

/-! ## Groups of styles and of literal text -/

/-- A style among the segments is written as `g` behind `pre`. -/
def Marks (segs : List Segment) (pre g : Text) : Prop :=
  ∃ l code r, segs = l ++ .direct code :: r ∧ l.flatMap ofSegment = pre ∧ group? (.parse code) = some g

/-- No group is written for the segment: it is literal text, or a style that says nothing. -/
def Silent : Segment → Prop
  | .text _ => True
  | .direct code => group? (.parse code) = none

/-- Literal texts make a group together: one ends with the beginning of a group, one begins with the end of it, and no
tag is written between the two. -/
def Joined (segs : List Segment) : Prop :=
  ∃ l t ms u r x y, segs = l ++ .text t :: (ms ++ .text u :: r) ∧ '[' :: x <:+ t ∧ y ++ [']'] <+: u ∧
    (∀ m ∈ ms, Silent m) ∧ IsBody (x ++ ms.flatMap Segment.literal ++ y)

theorem ofSegment_of_group? {code g : Text} (h : group? (.parse code) = some g) : ofSegment (.direct code) = g := by
  rw [ofSegment, h, Option.getD_some]

/-- What is written for a style is nothing or a group. -/
theorem ofSegment_direct (code : Text) :
    ofSegment (.direct code) = [] ∧ Silent (.direct code) ∨
      ∃ body, IsBody body ∧ ofSegment (.direct code) = '[' :: (body ++ [']']) ∧
        group? (.parse code) = some ('[' :: (body ++ [']'])) := by
  cases hg : group? (.parse code) with
  | none =>
    refine .inl ⟨?_, hg⟩
    rw [ofSegment, hg, Option.getD_none]
  | some g =>
    obtain ⟨body, hbody, rfl⟩ := isGroup_of_group? hg
    exact .inr ⟨body, hbody, ofSegment_of_group? hg, rfl⟩

/-- Inside of a group a segment that is not written for a style adds its literal text. -/
theorem ofSegment_eq_literal {m : Segment} (hs : Silent m) (hg : GroupText m.literal) : ofSegment m = m.literal := by
  cases m with
  | text t => exact escapeBrackets_of_not_mem hg.opening_not_mem
  | direct code =>
    have hnone : group? (.parse code) = none := hs
    rw [ofSegment, hnone, Option.getD_none, Segment.literal]

theorem of_groupText_ofSegment {m : Segment} (h : GroupText (ofSegment m)) : Silent m ∧ GroupText m.literal := by
  cases m with
  | text t => exact ⟨trivial, fun c hc => h c ((sublist_escapeBrackets t).subset hc)⟩
  | direct code =>
    rcases ofSegment_direct code with ⟨-, hs⟩ | ⟨body, -, hbody, -⟩
    · exact ⟨hs, groupText_nil⟩
    · rw [hbody] at h
      exact absurd List.mem_cons_self h.opening_not_mem

theorem groupText_flatMap {f : Segment → Text} {ms : List Segment} :
    GroupText (ms.flatMap f) ↔ ∀ m ∈ ms, GroupText (f m) := List.forall_mem_flatMap

theorem flatMap_ofSegment_eq_literal {ms : List Segment} (hs : ∀ m ∈ ms, Silent m)
    (hg : GroupText (ms.flatMap Segment.literal)) : ms.flatMap ofSegment = ms.flatMap Segment.literal :=
  List.flatMap_congr fun m hm => ofSegment_eq_literal (hs m hm) (groupText_flatMap.1 hg m hm)

/-- The segments in the middle of a group are not written for a style, and stand there as they are. -/
theorem of_groupText_flatMap {ms : List Segment} (h : GroupText (ms.flatMap ofSegment)) :
    (∀ m ∈ ms, Silent m) ∧ ms.flatMap ofSegment = ms.flatMap Segment.literal := by
  have hm : ∀ m ∈ ms, Silent m ∧ GroupText m.literal := fun m hm =>
    of_groupText_ofSegment (groupText_flatMap.1 h m hm)
  have hs : ∀ m ∈ ms, Silent m := fun m hmem => (hm m hmem).1
  exact ⟨hs, flatMap_ofSegment_eq_literal hs (groupText_flatMap.2 fun m hmem => (hm m hmem).2)⟩

/-! ## Every group -/

theorem Marks.isGroup {segs : List Segment} {pre g : Text} (h : Marks segs pre g) : IsGroup g := by
  obtain ⟨_, _, _, -, -, hg⟩ := h
  exact isGroup_of_group? hg

theorem Marks.isPrefix {segs : List Segment} {pre g : Text} (h : Marks segs pre g) :
    pre ++ g <+: segs.flatMap ofSegment := by
  obtain ⟨l, code, r, rfl, rfl, hg⟩ := h
  refine ⟨r.flatMap ofSegment, ?_⟩
  rw [List.flatMap_append, List.flatMap_cons, ofSegment_of_group? hg, List.append_assoc]

/-- A group that begins in what is written for a style is all of it. -/
theorem marks_of_direct {l r : List Segment} {code body post p q : Text} (hbody : IsBody body)
    (hm : ofSegment (.direct code) = p ++ '[' :: q) (hq : body ++ ']' :: post = q ++ r.flatMap ofSegment) :
    Marks (l ++ .direct code :: r) (l.flatMap ofSegment ++ p) ('[' :: (body ++ [']'])) := by
  rcases ofSegment_direct code with ⟨hnil, -⟩ | ⟨b, hb, hsome, hg⟩
  · rw [hnil] at hm
    exact absurd hm.symm (List.append_ne_nil_of_right_ne_nil p (List.cons_ne_nil _ _))
  · rw [hsome] at hm
    cases p with
    | nil =>
      obtain ⟨-, rfl⟩ := List.cons.inj hm
      rw [List.append_assoc, List.singleton_append] at hq
      obtain ⟨rfl, -⟩ := hbody.2.append_inj hb.2 (by decide) (by decide) hq
      exact ⟨l, code, r, rfl, (List.append_nil _).symm, hg⟩
    | cons c p =>
      have hopen : '[' ∈ b ++ [']'] := by
        rw [(List.cons.inj hm).2]
        exact List.mem_append_right p List.mem_cons_self
      exact absurd hopen (List.not_mem_append hb.2.opening_not_mem (by decide))

/-- A group that begins earlier does not end in what is written for a style. -/
theorem ofSegment_direct_ne {code y z : Text} (hy : GroupText y) : ofSegment (.direct code) ≠ y ++ ']' :: z := by
  intro h
  rcases ofSegment_direct code with ⟨hnil, -⟩ | ⟨body, -, hsome, -⟩
  · rw [hnil] at h
    exact absurd h.symm (List.append_ne_nil_of_right_ne_nil y (List.cons_ne_nil _ _))
  · rw [hsome] at h
    cases y with
    | nil => exact absurd (List.cons.inj h).1 (by decide)
    | cons c y =>
      have hc : c = '[' := (List.cons.inj h).1.symm
      exact absurd (hc ▸ List.mem_cons_self) hy.opening_not_mem

/-- A group that begins in a literal text ends in a later one. -/
theorem joined_of_text {l r : List Segment} {t body post p q : Text} (hbody : IsBody body)
    (hm : escapeBrackets t = p ++ '[' :: q) (hq : body ++ ']' :: post = q ++ r.flatMap ofSegment) :
    Joined (l ++ .text t :: r) := by
  rcases append_cons_eq_append hq with ⟨w, rfl, -⟩ | ⟨w, rfl, hw⟩
  · -- the group would lie inside of the text
    have hgroup : HasGroup (escapeBrackets t) := by
      refine ⟨_, ⟨body, hbody, rfl⟩, p, w, ?_⟩
      rw [hm]
      simp
    exact absurd hgroup (not_hasGroup_escapeBrackets t)
  · obtain ⟨ms, m, r, y, z, rfl, hend, rfl, -⟩ := exists_of_flatMap_eq hw
    obtain ⟨hx, hrest⟩ := groupText_append.1 hbody.2
    obtain ⟨hms, hy⟩ := groupText_append.1 hrest
    obtain ⟨hsilent, hliteral⟩ := of_groupText_flatMap hms
    cases m with
    | direct code => exact absurd hend (ofSegment_direct_ne hy)
    | text u =>
      have hclose : '[' ∉ y ++ [']'] := List.not_mem_append hy.opening_not_mem (by decide)
      have hopens : '[' :: q <:+ t := (suffix_escapeBrackets_iff hx).1 ⟨p, hm.symm⟩
      have hcloses : y ++ [']'] <+: u := by
        refine (prefix_escapeBrackets_iff hclose).1 ⟨z, ?_⟩
        rw [List.append_assoc, List.singleton_append]
        exact hend.symm
      refine ⟨l, t, ms, u, r, q, y, rfl, hopens, hcloses, hsilent, ?_⟩
      rw [← hliteral, List.append_assoc]
      exact hbody

/-- **A group in widget markup stands for a style or is made of joined texts.** The cases follow the segment in which
the group begins. -/
theorem marks_or_joined {segs : List Segment} {pre g : Text} (hg : IsGroup g)
    (h : pre ++ g <+: segs.flatMap ofSegment) : Marks segs pre g ∨ Joined segs := by
  obtain ⟨body, hbody, rfl⟩ := hg
  obtain ⟨post, h⟩ := h
  have hplace : segs.flatMap ofSegment = pre ++ '[' :: (body ++ ']' :: post) := by
    rw [← h]
    simp
  obtain ⟨l, m, r, p, q, rfl, hm, rfl, hq⟩ := exists_of_flatMap_eq hplace
  cases m with
  | direct code => exact .inl (marks_of_direct hbody hm hq)
  | text t => exact .inr (joined_of_text hbody hm hq)

/-! ## Joined texts -/

/-- No style is written where a literal text goes on. -/
theorem not_marks_inside {l r : List Segment} {t p q g : Text} {c : Char} (ht : escapeBrackets t = p ++ c :: q) :
    ¬ Marks (l ++ .text t :: r) (l.flatMap ofSegment ++ p) g := by
  rintro ⟨l', code, r', hsegs, hpre, hg⟩
  rcases append_cons_eq_append hsegs with ⟨w, rfl, -⟩ | ⟨w, rfl, hw⟩
  · -- the style comes after the text
    rw [List.flatMap_append, List.append_right_inj, List.flatMap_cons, ofSegment, ht, List.append_assoc,
      List.append_right_eq_self] at hpre
    exact absurd hpre (List.cons_ne_nil _ _)
  · cases w with
    | nil => cases hw
    | cons m w =>
      -- the style comes before the text
      obtain ⟨rfl, -⟩ := List.cons.inj hw
      obtain ⟨body, -, rfl⟩ := isGroup_of_group? hg
      rw [List.flatMap_append, List.append_assoc, List.flatMap_cons, ofSegment_of_group? hg,
        List.self_eq_append_right] at hpre
      exact absurd hpre (List.cons_ne_nil _ _)

/-- **Joined texts make a group that stands for no style.** -/
theorem exists_group_of_joined {segs : List Segment} (h : Joined segs) :
    ∃ pre g, IsGroup g ∧ pre ++ g <+: segs.flatMap ofSegment ∧ ¬ Marks segs pre g := by
  obtain ⟨l, t, ms, u, r, x, y, rfl, hopens, hcloses, hsilent, hbody⟩ := h
  obtain ⟨hxms, hy⟩ := groupText_append.1 hbody.2
  obtain ⟨hx, hms⟩ := groupText_append.1 hxms
  have hclose : '[' ∉ y ++ [']'] := List.not_mem_append hy.opening_not_mem (by decide)
  obtain ⟨p, ht⟩ := (suffix_escapeBrackets_iff hx).2 hopens
  obtain ⟨z, hu⟩ := (prefix_escapeBrackets_iff hclose).2 hcloses
  have hliteral := flatMap_ofSegment_eq_literal hsilent hms
  refine ⟨l.flatMap ofSegment ++ p, '[' :: (x ++ ms.flatMap Segment.literal ++ y ++ [']']), ⟨_, hbody, rfl⟩, ?_,
    not_marks_inside ht.symm⟩
  refine ⟨z ++ r.flatMap ofSegment, ?_⟩
  simp only [List.flatMap_append, List.flatMap_cons, hliteral, ofSegment, ← ht, ← hu, List.append_assoc,
    List.cons_append]

/-- **The groups in widget markup are the tags of its styles, each at its place, just when no literal texts are joined
to a group.** -/
theorem widgetMarkup_groups_iff (d : Delimiters) (r : Registry) (s : Text) :
    (∀ pre g, IsGroup g ∧ pre ++ g <+: widgetMarkup d r s ↔ Marks (segments d r s) pre g) ↔
      ¬ Joined (segments d r s) := by
  constructor
  · intro hall hjoined
    obtain ⟨pre, g, hg, hpre, hmarks⟩ := exists_group_of_joined hjoined
    exact hmarks ((hall pre g).1 ⟨hg, hpre⟩)
  · intro hjoined pre g
    constructor
    · rintro ⟨hg, hpre⟩
      exact (marks_or_joined hg hpre).resolve_right hjoined
    · intro hmarks
      exact ⟨hmarks.isGroup, hmarks.isPrefix⟩

/-- A literal group around an unknown name. -/
def splitNotice : Text := "[NOT".toList ++ Delimiters.canonical.wrapSemantic "gone".toList ++ "ICE]".toList

/-- **Literal text that is read as a style.** -/
theorem widgetMarkup_groups_ne :
    widgetMarkup .canonical .empty splitNotice = "[NOTICE]".toList ∧ IsGroup "[NOTICE]".toList ∧
      ∀ pre g, ¬ Marks (segments .canonical .empty splitNotice) pre g := by
  have hsegments : segments .canonical .empty splitNotice = [.text "[NOT".toList, .text "ICE]".toList] := by
    decide +kernel
  refine ⟨by decide +kernel, ⟨"NOTICE".toList, by decide, rfl⟩, ?_⟩
  rintro pre g ⟨l, code, r, hsegs, -⟩
  have hmem : Segment.direct code ∈ segments .canonical .empty splitNotice := by
    rw [hsegs]
    exact List.mem_append_right l List.mem_cons_self
  rw [hsegments] at hmem
  simp at hmem

end Widget
end TerminalMarkup
