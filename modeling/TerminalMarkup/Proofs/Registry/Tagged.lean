import TerminalMarkup.Proofs.Composition.Made
import TerminalMarkup.Proofs.Registry.Namespace
import TerminalMarkup.Proofs.Token.Written
import TerminalMarkup.Renderer

/-!
# Tags in storage

A value with tags is registered in the delimiters of a renderer and stored in the canonical ones. The text between the
tags goes, and of a single direct tag the delimiters go as well. Read as `storedTokens` reads it, what is stored has all
of the tags:

* tags that are written one behind the other are read as they are (`AllTags.storedTokens_writeTokens`), and there are no
  blanks in them to trim (`AllTags.trim_writeTokens`),
* the registry takes delimiters off a value only where it is one direct tag from end to end
  (`Registry.normalizeValue_cases`), and so stores it without losing a token (`Registry.storedTokens_normalizeValue`).
-/

namespace TerminalMarkup

/-- The tokens of a stored value: a bare style code stands for a direct tag. -/
def storedTokens (value : Text) : List Token :=
  if Token.isCode value then [.direct value] else tokenize .canonical value

theorem storedTokens_of_isCode {code : Text} (h : Token.isCode code = true) : storedTokens code = [.direct code] :=
  if_pos h

theorem storedTokens_of_brace {value : Text} (h : '{' ∈ value) : storedTokens value = tokenize .canonical value :=
  if_neg (Bool.eq_false_iff.1 (Token.isCode_of_brace h))

/-- The tags of a value without blanks around it are those of its tokens. -/
theorem tagsOf_eq_filter_storedTokens {value : Text} (h : value.trim = value) :
    tagsOf .canonical value = (storedTokens value).filter Token.isTag := by
  by_cases hcode : Token.isCode value = true
  · rw [tagsOf_of_isCode hcode, storedTokens_of_isCode hcode]
    rfl
  · rw [tagsOf, storedTokens, h, if_neg hcode]
    split
    · rfl
    next hopen =>
      rw [tokenize_of_untagged (untagged_of_hasOpening (Bool.eq_false_iff.2 hopen))]
      exact (List.filter_eq_nil_iff.2 fun t ht => by simp [Token.isTag_of_mem_textUnlessEmpty ht]).symm

/-! ## Tags one behind the other -/

/-- Tags with payloads that they may hold. -/
def AllTags (ts : List Token) : Prop := ∀ t ∈ ts, t.isTag = true ∧ t.isValid = true

theorem allTags_filter_tokenize (d : Delimiters) (s : Text) : AllTags ((tokenize d s).filter Token.isTag) := by
  intro t ht
  obtain ⟨hmem, htag⟩ := List.mem_filter.1 ht
  exact ⟨htag, Token.isValid_of_mem_tokenize hmem⟩

/-- There are no blanks in a tag. -/
theorem Token.isBlank_of_mem_source {t : Token} (ht : t.isTag = true) (hv : t.isValid = true) :
    ∀ c ∈ t.source .canonical, isBlank c = false := by
  have hwrap {o payload e : Text} (ho : ∀ c ∈ o, isBlank c = false) (hp : ∀ c ∈ payload, isCodeChar c = true)
      (he : ∀ c ∈ e, isBlank c = false) : ∀ c ∈ o ++ payload ++ e, isBlank c = false := by
    intro c hc
    rcases List.mem_append.1 hc with hc | hc
    · rcases List.mem_append.1 hc with hc | hc
      · exact ho c hc
      · exact isBlank_of_isCodeChar (hp c hc)
    · exact he c hc
  cases t with
  | text s => cases ht
  | semantic name =>
    exact hwrap (by decide) (fun c hc => isCodeChar_of_isNameChar ((isName_iff.1 hv).2 c hc)) (by decide)
  | direct code => exact hwrap (by decide) (isCode_iff.1 hv).2 (by decide)

namespace AllTags

variable {ts : List Token}

theorem legible (h : AllTags ts) : Legible ts where
  proper t ht := by
    obtain ⟨htag, hvalid⟩ := h t ht
    refine ⟨?_, hvalid⟩
    rintro rfl
    cases htag
  untagged _ hs := by cases (h _ hs).1
  apart := (List.pairwise_of_forall_mem_list fun t ht _ _ => .inl (h t ht).1).isChain

theorem trim_writeTokens (h : AllTags ts) : (writeTokens .canonical ts).trim = writeTokens .canonical ts := by
  refine Text.trim_of_not_blank fun c hc => ?_
  obtain ⟨t, ht, hc⟩ := List.mem_flatMap.1 hc
  exact Token.isBlank_of_mem_source (h t ht).1 (h t ht).2 c hc

/-- **Tags one behind the other are read back.** -/
theorem storedTokens_writeTokens (h : AllTags ts) : storedTokens (writeTokens .canonical ts) = ts := by
  cases ts with
  | nil => exact tokenize_nil _
  | cons t ts =>
    obtain ⟨u, hu⟩ := Token.exists_braces_of_isTag (h t List.mem_cons_self).1 (writeTokens .canonical ts)
    have hbrace : '{' ∈ writeTokens .canonical (t :: ts) := by
      rw [writeTokens_cons, hu]
      exact List.mem_cons_self
    rw [storedTokens_of_brace hbrace, h.legible.tokenize_eq]

end AllTags

/-! ## Taking delimiters off -/

theorem Text.append_of_before? {p s r : Text} (h : before? p s = some r) : r ++ p = s := by
  obtain ⟨t, ht, rfl⟩ := Option.map_eq_some_iff.1 h
  rw [← List.reverse_inj, List.reverse_append, List.reverse_reverse]
  exact append_of_after? ht

/-- Besides blanks, only the delimiters of a direct tag are taken off. -/
theorem Delimiters.unwrapDirect_cases (d : Delimiters) (s : Text) :
    d.unwrapDirect s = s.trim ∨ s.trim = d.wrapDirect (d.unwrapDirect s) := by
  unfold unwrapDirect
  split
  · exact .inl rfl
  cases h : (Text.after? d.directOpen s.trim).bind (Text.before? d.directClose) with
  | none => exact .inl rfl
  | some payload =>
    obtain ⟨body, hbody, hpayload⟩ := Option.bind_eq_some_iff.1 h
    refine .inr ?_
    rw [Option.getD_some, wrapDirect, List.append_assoc, Text.append_of_before? hpayload, Text.append_of_after? hbody]

namespace Registry

/-- A value is stored trimmed, unless it is a direct tag, which is stored as its style code. -/
theorem normalizeValue_cases (raw : Text) :
    normalizeValue raw = raw.trim ∨ Token.isCode (normalizeValue raw) = true ∧
      raw.trim = writeTokens .canonical [.direct (normalizeValue raw)] := by
  dsimp only [normalizeValue]
  split
  next hcode =>
    refine (Delimiters.canonical.unwrapDirect_cases raw).imp_right fun h => ⟨hcode, h.trans ?_⟩
    exact (List.flatMap_singleton ..).symm
  · exact .inl rfl

theorem trim_normalizeValue (raw : Text) : (normalizeValue raw).trim = normalizeValue raw := by
  rcases normalizeValue_cases raw with h | ⟨hcode, -⟩
  · rw [h]
    exact Text.strip_strip raw
  · exact Token.trim_of_isCode hcode

/-- **Storing a value loses none of its tokens.** -/
theorem storedTokens_normalizeValue (raw : Text) : storedTokens (normalizeValue raw) = storedTokens raw.trim := by
  rcases normalizeValue_cases raw with h | ⟨hcode, h⟩
  · rw [h]
  · have htag : AllTags [.direct (normalizeValue raw)] := by
      intro t ht
      obtain rfl := List.mem_singleton.1 ht
      exact ⟨rfl, hcode⟩
    rw [h, storedTokens_of_isCode hcode, htag.storedTokens_writeTokens]

end Registry

/-! ## Registered tags -/

/-- **No tag is lost in storage.** A value that is registered in the delimiters of a renderer is stored with just its
tags, in their order and without any text: as they are written in the canonical delimiters or, if there is one direct
tag, as its style code. When the stored value is composed or expanded, the same tags are read. -/
theorem storedTokens_registerTag (re : Renderer) {name raw : Text} (hopen : re.delimiters.hasOpening raw = true)
    (hname : Name.normalize name ≠ []) :
    let tags := (tokenize re.delimiters raw).filter Token.isTag
    ∃ value, (re.registerTag name raw).registry.lookup name = some value ∧ storedTokens value = tags ∧
      tagsOf .canonical value = tags ∧
      (value = writeTokens .canonical tags ∨ ∃ code, tags = [.direct code] ∧ value = code) := by
  intro tags
  have htags : AllTags tags := allTags_filter_tokenize re.delimiters raw
  have hcanonical : Renderer.canonicalize re.delimiters raw = writeTokens .canonical tags := if_pos hopen
  have htokens : storedTokens (Registry.normalizeValue (writeTokens .canonical tags)) = tags := by
    rw [Registry.storedTokens_normalizeValue, htags.trim_writeTokens, htags.storedTokens_writeTokens]
  refine ⟨Registry.normalizeValue (writeTokens .canonical tags), ?_, htokens, ?_, ?_⟩
  · rw [← hcanonical]
    exact re.registry.lookup_register hname _
  · rw [tagsOf_eq_filter_storedTokens (Registry.trim_normalizeValue _), htokens]
    exact List.filter_eq_self.2 fun t ht => (htags t ht).1
  · rcases Registry.normalizeValue_cases (writeTokens .canonical tags) with h | ⟨hcode, -⟩
    · exact .inl (h.trans htags.trim_writeTokens)
    · exact .inr ⟨_, htokens.symm.trans (storedTokens_of_isCode hcode), rfl⟩

/-- Delimiters that begin alike, with payloads of underscores and an unfinished tag, under a name that is not normal. -/
theorem storedTokens_registerTag_overlapping :
    let d : Delimiters := ⟨"[".toList, "]".toList, "[[".toList, "]]".toList⟩
    let re : Renderer := { Renderer.new .builtin with delimiters := d }
    let raw := " [[_]] x [_a_][[no code]][[red::B]]\n[b".toList
    let tags : List Token := [.direct "_".toList, .semantic "_a_".toList, .direct "red::B".toList]
    re.delimiters.hasOpening raw = true ∧ Name.normalize " _Röt_ ".toList ≠ [] ∧
      ∃ value, (re.registerTag " _Röt_ ".toList raw).registry.lookup " _Röt_ ".toList = some value ∧
        storedTokens value = tags ∧ tagsOf .canonical value = tags := by
  intro d re raw tags
  have hopen : re.delimiters.hasOpening raw = true := by decide +kernel
  have hname : Name.normalize " _Röt_ ".toList ≠ [] := by decide +kernel
  have htags : (tokenize re.delimiters raw).filter Token.isTag = tags := by decide +kernel
  obtain ⟨value, hvalue, hstored, hread, -⟩ := storedTokens_registerTag re hopen hname
  exact ⟨hopen, hname, value, hvalue, hstored.trans htags, hread.trans htags⟩

end TerminalMarkup
