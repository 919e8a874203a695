import Stencil.Engine.Basic
import Stencil.Proofs.Composition
import Stencil.Proofs.Marker

/-!
# Content in the place of a marker

The content of an inclusion takes the place of the marker in a partial. Depths are numbered for each
template by itself, so a close in the content may carry the key and the depth of a bare tag of the
partial, and a close of the partial those of a bare tag of the content. Unless this happens, the
partial executes up to its marker, then the content, then the rest of the partial.
-/

namespace Stencil

open Node

variable {nodes before after : List Node} {word : String}

/-- The tags at a boundary of a block stand on one side of a marker that is found. -/
theorem apart_of_splitAtMarker (h : splitAtMarker? nodes word = some (before, after)) :
    (∀ second, Apart before second) ∨ ∀ first, Apart first after := by
  obtain ⟨i, hfound, hparts⟩ := Option.map_eq_some_iff.1 h
  obtain ⟨rfl, rfl⟩ := Prod.mk.inj hparts
  rcases (markerIndex?_eq_some hfound).1.2 with hfront | hback
  · exact .inl fun second => apart_of_left hfront
  · exact .inr fun first => apart_of_right hback

/-- A list is divided at a marker that is found in it. -/
theorem exists_marker_of_splitAtMarker (h : splitAtMarker? nodes word = some (before, after)) :
    ∃ marker, marker.isMarker word ∧ nodes = before ++ marker :: after := by
  obtain ⟨i, hfound, hparts⟩ := Option.map_eq_some_iff.1 h
  obtain ⟨rfl, rfl⟩ := Prod.mk.inj hparts
  obtain ⟨marker, hmarker, hword⟩ := (markerIndex?_eq_some hfound).1.1.exists_getElem?
  obtain ⟨hi, rfl⟩ := List.getElem?_eq_some_iff.1 hmarker
  exact ⟨nodes[i], hword, by rw [← List.drop_eq_getElem_cons hi, List.take_append_drop]⟩

/-- What is divided at a marker keeps its blocks. -/
theorem segments_of_splitAtMarker (h : splitAtMarker? nodes word = some (before, after)) :
    ∃ marker, segments nodes = segments before ++ ⟨marker, []⟩ :: segments after := by
  obtain ⟨marker, hword, rfl⟩ := exists_marker_of_splitAtMarker h
  have htag := isBlockTag_of_isMarker hword
  have hmarker : ∀ node ∈ [marker], node.isBlockTag = false := List.forall_mem_singleton.2 htag
  have hsingle : segments [marker] = [⟨marker, []⟩] := segments_cons_of_not_closedBy (by simp)
  refine ⟨marker, ?_⟩
  rw [List.append_cons, List.append_cons (segments before), ← hsingle]
  rcases apart_of_splitAtMarker h with hbefore | hafter
  · rw [List.append_assoc, segments_append_iff.2 (hbefore _),
      segments_append_iff.2 (apart_of_left hmarker), List.append_assoc]
  · rw [segments_append_iff.2 (hafter _), segments_append_iff.2 (apart_of_right hmarker)]

theorem spliceContent_of_splitAtMarker
    (h : splitAtMarker? nodes contentMarker = some (before, after)) (content : List Node) :
    spliceContent nodes content = before ++ content ++ after := by
  rw [spliceContent, h]

/-- The segments of a partial with content are those of its parts if and only if the parts are
apart. -/
theorem segments_spliceContent_iff
    (h : splitAtMarker? nodes contentMarker = some (before, after)) (content : List Node) :
    segments (spliceContent nodes content) =
        segments before ++ segments content ++ segments after ↔
      Apart before content ∧ Apart content after := by
  rw [spliceContent_of_splitAtMarker h]
  rcases apart_of_splitAtMarker h with hbefore | hafter
  · rw [List.append_assoc, List.append_assoc, segments_append_iff.2 (hbefore _),
      List.append_cancel_left_eq, segments_append_iff, and_iff_right (hbefore _)]
  · rw [segments_append_iff.2 (hafter _), List.append_cancel_right_eq, segments_append_iff,
      and_iff_left (hafter _)]

/-- Blocks of a partial and of its content do not capture each other if and only if neither closes
what the other leaves open before it. Then the partial with its content executes like what stands
before the marker, the content, and what stands after the marker, one after the other. -/
theorem splice_of_splitAtMarker
    (h : splitAtMarker? nodes contentMarker = some (before, after)) (content : List Node) :
    (segments (spliceContent nodes content) =
        segments before ++ segments content ++ segments after ↔
      Apart before content ∧ Apart content after) ∧
    (Apart before content → Apart content after →
      ∀ {σ : Type} (env : Environment σ) (limit : Nat) (context : Value) (store : σ),
        env.execute limit (spliceContent nodes content) context store =
          env.executeInTurn limit [before, content, after] context store) := by
  refine ⟨segments_spliceContent_iff h content, ?_⟩
  intro hbefore hafter σ env limit context store
  have hrest : Apart before (content ++ after) := by
    refine apart_append_iff.2 ⟨hbefore, ?_⟩
    rcases apart_of_splitAtMarker h with h | h
    · exact h after
    · exact h before
  have hlast : env.executeInTurn limit [content, after] =
      env.execute limit (content ++ after) := by
    funext context store
    rw [Environment.executeInTurn, Environment.executeInTurn_singleton,
      Environment.execute_append hafter]
  rw [spliceContent_of_splitAtMarker h, List.append_assoc, Environment.execute_append hrest,
    Environment.executeInTurn, hlast]

/-- A partial and its content with bare tags and blocks of the same keys and depths. -/
theorem splice_of_splitAtMarker_shared_keys :
    let dialect : Dialect := { delimiters := ⟨"[", "]"⟩ }
    let env := (Engine.new dialect : Engine Sources).environment
    let before : List Node := [.helper "set" "[#set x = 1]" ⟨0, 12⟩ 0 (some "x = 1"),
      .helper "if" "[#if x]" ⟨12, 19⟩ 0 (some "x"), .text "a", .close "if" "[/if]" ⟨20, 25⟩ 0]
    let after : List Node := [.text "<", .interpolation "x" "[x]" ⟨34, 37⟩ none, .text ">"]
    let nodes := before ++ .interpolation "$block" "[$block]" ⟨25, 33⟩ none :: after
    let content : List Node := [.helper "if" "[#if x]" ⟨5, 12⟩ 0 (some "x"), .text "b",
      .close "if" "[/if]" ⟨13, 18⟩ 0, .helper "set" "[#set x = 2]" ⟨18, 30⟩ 0 (some "x = 2")]
    Template.parse dialect "[#set x = 1][#if x]a[/if][$block]<[x]>" = .ok nodes ∧
      (Template.parse dialect "[> p][#if x]b[/if][#set x = 2][/p]").map (bodyAt · 0) =
        .ok content ∧
      splitAtMarker? nodes contentMarker = some (before, after) ∧
      Apart before content ∧ Apart content after ∧
      segments (spliceContent nodes content) =
        segments before ++ segments content ++ segments after ∧
      (env.execute 2 (spliceContent nodes content) (.object []) ⟨[]⟩).map (·.result.toOption) =
        some (some "ab<2>") := by
  intro dialect env before after nodes content
  have h : splitAtMarker? nodes contentMarker = some (before, after) := by decide +kernel
  have hbefore : Apart before content := by decide +kernel
  have hafter : Apart content after := by decide +kernel
  obtain ⟨hsegments, hexecute⟩ := splice_of_splitAtMarker h content
  refine ⟨by decide +kernel, by decide +kernel, h, hbefore, hafter,
    hsegments.2 ⟨hbefore, hafter⟩, ?_⟩
  rw [hexecute hbefore hafter]
  decide +kernel

/-- A bare tag of a partial is closed in its content and takes its assignment along. -/
theorem spliceContent_captures :
    let dialect : Dialect := { delimiters := ⟨"[", "]"⟩ }
    let env := (Engine.new dialect : Engine Sources).environment
    let before : List Node := [.helper "set" "[#set x = 1]" ⟨0, 12⟩ 0 (some "x = 1")]
    let after : List Node := [.text "<", .interpolation "x" "[x]" ⟨21, 24⟩ none, .text ">"]
    let nodes := before ++ .interpolation "$block" "[$block]" ⟨12, 20⟩ none :: after
    let content : List Node := [.helper "set" "[#set y = 2]" ⟨5, 17⟩ 0 (some "y = 2"), .text "b",
      .close "set" "[/set]" ⟨18, 24⟩ 0]
    Template.parse dialect "[#set x = 1][$block]<[x]>" = .ok nodes ∧
      (Template.parse dialect "[> p][#set y = 2]b[/set][/p]").map (bodyAt · 0) = .ok content ∧
      splitAtMarker? nodes contentMarker = some (before, after) ∧
      (env.execute 3 (spliceContent nodes content) (.object []) ⟨[]⟩).map (·.result.toOption) =
        some (some "b<>") ∧
      (env.executeInTurn 3 [before, content, after] (.object []) ⟨[]⟩).map (·.result.toOption) =
        some (some "b<1>") := by
  intro dialect env before after nodes content
  refine ⟨by decide +kernel, by decide +kernel, by decide +kernel, ?_, ?_⟩ <;> decide +kernel

end Stencil
