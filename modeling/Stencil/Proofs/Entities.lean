import Mathlib.Tactic.Common
import Stencil.Proofs.Escaping

/-!
# HTML escapes are read back

An escaped text holds no markup, and an ampersand in it is always the first character of an entity.
A single pass from left to right that puts the characters back in the place of their entities gives
the text back as it was, even if it held entities, or parts of them, before it was escaped. The
texts of this kind are exactly the escapes.

## Main definitions

* `Text.entities`, `Text.unescapeHtml`: the five entities, and the pass that reads them back.
* `Text.Escaped`: texts without markup in which every ampersand starts an entity.
-/

namespace Stencil.Text

/-- The entities that stand for a character. -/
def entities : List (List Char) :=
  ["&amp;", "&lt;", "&gt;", "&quot;", "&#39;"].map String.toList

/-- `s` with the entities that are met from left to right replaced by their characters. What has
been put in is not looked at again. -/
def unescapeChars : List Char → List Char
  | '&' :: 'a' :: 'm' :: 'p' :: ';' :: s => '&' :: unescapeChars s
  | '&' :: 'l' :: 't' :: ';' :: s => '<' :: unescapeChars s
  | '&' :: 'g' :: 't' :: ';' :: s => '>' :: unescapeChars s
  | '&' :: 'q' :: 'u' :: 'o' :: 't' :: ';' :: s => '"' :: unescapeChars s
  | '&' :: '#' :: '3' :: '9' :: ';' :: s => '\'' :: unescapeChars s
  | c :: s => c :: unescapeChars s
  | [] => []

def unescapeHtml (s : String) : String :=
  String.ofList (unescapeChars s.toList)

/-- Whether every ampersand is the first character of an entity. -/
def AmpersandsStartEntities (s : List Char) : Prop :=
  ∀ rest, '&' :: rest <:+ s → ∃ entity ∈ entities, entity <+: '&' :: rest

/-- Whether a text holds no markup, and no ampersand but those of entities. -/
structure Escaped (s : String) : Prop where
  freeOfMarkup : FreeOfMarkup s
  startEntities : AmpersandsStartEntities s.toList

variable {c : Char} {s t : List Char}

/-! ## Characters -/

/-- The characters that are escaped. -/
def IsSpecial (c : Char) : Prop :=
  c = '&' ∨ c ∈ markup

/-- What is true of each of the five special characters is true of all of them. -/
theorem IsSpecial.elim {P : Char → Prop} (h : IsSpecial c) (hamp : P '&') (hless : P '<')
    (hgreater : P '>') (hdouble : P '"') (hsingle : P '\'') : P c := by
  simp only [IsSpecial, markup, List.mem_cons, List.not_mem_nil, or_false] at h
  rcases h with rfl | rfl | rfl | rfl | rfl <;> assumption

theorem escapeHtmlChar_of_not_isSpecial (h : ¬ IsSpecial c) : escapeHtmlChar c = [c] := by
  simp only [IsSpecial, markup, List.mem_cons, List.not_mem_nil, or_false, not_or] at h
  unfold escapeHtmlChar
  split <;> simp_all

theorem escapeHtmlChar_mem_entities (h : IsSpecial c) : escapeHtmlChar c ∈ entities :=
  h.elim (P := (escapeHtmlChar · ∈ entities)) (by decide) (by decide) (by decide) (by decide)
    (by decide)

/-- Every entity stands for a special character. -/
theorem exists_of_mem_entities {entity : List Char} (h : entity ∈ entities) :
    ∃ c, IsSpecial c ∧ escapeHtmlChar c = entity := by
  simp only [entities, List.map_cons, List.map_nil, List.mem_cons, List.not_mem_nil, or_false] at h
  rcases h with rfl | rfl | rfl | rfl | rfl
  · exact ⟨'&', .inl rfl, rfl⟩
  · exact ⟨'<', .inr (by decide), rfl⟩
  · exact ⟨'>', .inr (by decide), rfl⟩
  · exact ⟨'"', .inr (by decide), rfl⟩
  · exact ⟨'\'', .inr (by decide), rfl⟩

/-- An entity starts with an ampersand and holds no other one. -/
theorem exists_escapeHtmlChar_eq_cons (h : IsSpecial c) :
    ∃ name, escapeHtmlChar c = '&' :: name ∧ '&' ∉ name :=
  h.elim (P := fun c => ∃ name, escapeHtmlChar c = '&' :: name ∧ '&' ∉ name)
    ⟨_, rfl, by decide⟩ ⟨_, rfl, by decide⟩ ⟨_, rfl, by decide⟩ ⟨_, rfl, by decide⟩
    ⟨_, rfl, by decide⟩

/-! ## Reading entities -/

theorem unescapeChars_cons (h : c ≠ '&') (s : List Char) :
    unescapeChars (c :: s) = c :: unescapeChars s := by
  rw [unescapeChars] <;> simp [h]

/-- The escape of a character is read back, whatever stands behind it. -/
theorem unescapeChars_escapeHtmlChar (c : Char) (s : List Char) :
    unescapeChars (escapeHtmlChar c ++ s) = c :: unescapeChars s := by
  by_cases h : IsSpecial c
  · exact h.elim (P := fun c => unescapeChars (escapeHtmlChar c ++ s) = c :: unescapeChars s)
      rfl rfl rfl rfl rfl
  · have hamp : c ≠ '&' := fun heq => h (.inl heq)
    rw [escapeHtmlChar_of_not_isSpecial h, List.singleton_append, unescapeChars_cons hamp]

theorem unescapeHtml_escapeHtml (s : String) : unescapeHtml (escapeHtml s) = s := by
  have key : ∀ s : List Char, unescapeChars (s.flatMap escapeHtmlChar) = s := by
    intro s
    induction s with
    | nil => rfl
    | cons c s ih => rw [List.flatMap_cons, unescapeChars_escapeHtmlChar, ih]
  rw [unescapeHtml, escapeHtml, String.toList_ofList, key, String.ofList_toList]

theorem escapeHtml_append (s t : String) : escapeHtml (s ++ t) = escapeHtml s ++ escapeHtml t := by
  simp only [escapeHtml, String.toList_append, List.flatMap_append, String.ofList_append]

/-! ## Ampersands -/

theorem ampersandsStartEntities_nil : AmpersandsStartEntities [] := by
  intro rest h
  simp at h

theorem AmpersandsStartEntities.of_suffix (h : AmpersandsStartEntities s) (hsuffix : t <:+ s) :
    AmpersandsStartEntities t :=
  fun rest hrest => h rest (hrest.trans hsuffix)

theorem AmpersandsStartEntities.cons (h : AmpersandsStartEntities s)
    (hc : c = '&' → ∃ entity ∈ entities, entity <+: c :: s) : AmpersandsStartEntities (c :: s) := by
  intro rest hrest
  rcases List.suffix_cons_iff.1 hrest with heq | hsuffix
  · obtain ⟨rfl, rfl⟩ := List.cons.inj heq
    exact hc rfl
  · exact h rest hsuffix

theorem AmpersandsStartEntities.append (h : AmpersandsStartEntities t) (hs : '&' ∉ s) :
    AmpersandsStartEntities (s ++ t) := by
  induction s with
  | nil => exact h
  | cons c s ih =>
    obtain ⟨hc, hs⟩ := not_or.1 (mt List.mem_cons.2 hs)
    exact (ih hs).cons fun heq => absurd heq.symm hc

/-- Escapes may be put together, since no ampersand stands inside an entity. -/
theorem AmpersandsStartEntities.escapeHtmlChar_append (h : AmpersandsStartEntities s) (c : Char) :
    AmpersandsStartEntities (escapeHtmlChar c ++ s) := by
  by_cases hspecial : IsSpecial c
  · obtain ⟨name, hname, hamp⟩ := exists_escapeHtmlChar_eq_cons hspecial
    have hentity : '&' :: name ∈ entities := hname ▸ escapeHtmlChar_mem_entities hspecial
    rw [hname, List.cons_append]
    exact (h.append hamp).cons fun _ => ⟨_, hentity, List.prefix_append ('&' :: name) s⟩
  · rw [escapeHtmlChar_of_not_isSpecial hspecial]
    exact h.cons fun heq => absurd (.inl heq) hspecial

theorem escaped_escapeHtml (s : String) : Escaped (escapeHtml s) where
  freeOfMarkup := freeOfMarkup_escapeHtml s
  startEntities := by
    rw [escapeHtml, String.toList_ofList]
    induction s.toList with
    | nil => exact ampersandsStartEntities_nil
    | cons c s ih => exact ih.escapeHtmlChar_append c

/-- Where every ampersand starts an entity, a text starts with the escape of a character. -/
theorem exists_escapeHtmlChar_append_eq (hs : s ≠ []) (hmarkup : ∀ c ∈ s, c ∉ markup)
    (h : AmpersandsStartEntities s) :
    ∃ c rest, s = escapeHtmlChar c ++ rest ∧ rest.length < s.length := by
  obtain ⟨c, s, rfl⟩ := List.exists_cons_of_ne_nil hs
  by_cases hamp : c = '&'
  · subst hamp
    obtain ⟨entity, hentity, rest, hrest⟩ := h s (List.suffix_refl _)
    obtain ⟨c, hspecial, rfl⟩ := exists_of_mem_entities hentity
    obtain ⟨name, hname, -⟩ := exists_escapeHtmlChar_eq_cons hspecial
    have hlength := congrArg List.length hrest
    grind
  · have hspecial : ¬ IsSpecial c := not_or.2 ⟨hamp, hmarkup c List.mem_cons_self⟩
    exact ⟨c, s, by rw [escapeHtmlChar_of_not_isSpecial hspecial]; rfl, by simp⟩

/-- What is read from such a text is escaped to what was there. -/
theorem flatMap_unescapeChars (s : List Char) (hmarkup : ∀ c ∈ s, c ∉ markup)
    (h : AmpersandsStartEntities s) : (unescapeChars s).flatMap escapeHtmlChar = s := by
  by_cases hs : s = []
  · subst hs
    rfl
  · obtain ⟨c, rest, rfl, hlt⟩ := exists_escapeHtmlChar_append_eq hs hmarkup h
    rw [unescapeChars_escapeHtmlChar, List.flatMap_cons,
      flatMap_unescapeChars rest (fun d hd => hmarkup d (List.mem_append_right _ hd))
        (h.of_suffix (List.suffix_append _ rest))]
termination_by s.length

/-- A text is escaped if and only if it is the escape of what is read from it. -/
theorem escaped_iff {s : String} : Escaped s ↔ escapeHtml (unescapeHtml s) = s := by
  constructor
  · intro h
    rw [escapeHtml, unescapeHtml, String.toList_ofList,
      flatMap_unescapeChars _ h.freeOfMarkup h.startEntities, String.ofList_toList]
  · intro h
    exact h ▸ escaped_escapeHtml (unescapeHtml s)

/-- Escaping loses nothing: an escape holds no markup and only ampersands that start an entity, and
is read back from left to right. So distinct texts have distinct escapes, which are all texts of
this kind. Texts that are put together are escaped one by one. -/
theorem escapeHtml_invertible (s : String) :
    Escaped (escapeHtml s) ∧ unescapeHtml (escapeHtml s) = s ∧ Function.Injective escapeHtml ∧
      (∀ t, escapeHtml (s ++ t) = escapeHtml s ++ escapeHtml t) ∧
      (Escaped s ↔ ∃ t, escapeHtml t = s) := by
  refine ⟨escaped_escapeHtml s, unescapeHtml_escapeHtml s,
    Function.LeftInverse.injective unescapeHtml_escapeHtml, escapeHtml_append s, ?_⟩
  constructor
  · intro h
    exact ⟨unescapeHtml s, escaped_iff.1 h⟩
  · rintro ⟨t, rfl⟩
    exact escaped_escapeHtml t

/-- A text that holds an entity and the end of one. -/
example : escapeHtml "&lt; <b> amp;" = "&amp;lt; &lt;b&gt; amp;" := by decide

end Stencil.Text
