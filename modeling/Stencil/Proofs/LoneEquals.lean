import Stencil.Proofs.Clauses
import Stencil.Render.Builtin

/-!
# Lone equals signs

An equals sign that is part of no operator is a token of its own, and no operator. A clause in which
it stands between other tokens is refused, so that no comparison is lost where a sign was
forgotten. As an operand it is a path without segments, and counts as null.

## Main definitions

* `Condition.loneEquals`: the token.
* `Clause.TakesEquals`: whether a clause has it for an operand.
-/

namespace Stencil

namespace Condition

/-- An equals sign that is part of no operator. -/
def loneEquals : List Char := ['=']

end Condition

/-- Whether the tokens of a clause are just a lone equals sign, or a comparison with one. -/
inductive Clause.TakesEquals (tokens : List (List Char)) : Prop
  | alone (h : body tokens = [Condition.loneEquals])
  | left (comparison : Comparison) (right : List Char)
      (h : body tokens = [Condition.loneEquals, comparison.symbol, right])
  | right (left : List Char) (comparison : Comparison)
      (h : body tokens = [left, comparison.symbol, Condition.loneEquals])

theorem Comparison.symbol_ne_loneEquals (comparison : Comparison) :
    comparison.symbol ≠ Condition.loneEquals := by
  cases comparison <;> decide

section

variable {tokens : List (List Char)} {token : List Char}

theorem Clause.mem_body (hmem : token ∈ tokens) (h : token ≠ negation) : token ∈ body tokens := by
  rw [← List.takeWhile_append_dropWhile (p := (· == negation)) (l := tokens)] at hmem
  refine (List.mem_append.1 hmem).resolve_left fun hleading => h ?_
  simpa using List.all_eq_true.1 List.all_takeWhile token hleading

/-- A clause may have a lone equals sign only as an operand. -/
theorem Clause.grammatical_iff_takesEquals (h : Condition.loneEquals ∈ tokens) :
    Grammatical tokens ↔ TakesEquals tokens := by
  have hmem : Condition.loneEquals ∈ body tokens := mem_body h (by decide)
  constructor
  · rintro (⟨token, hbody⟩ | ⟨left, comparison, right, hbody⟩)
    · rw [hbody, List.mem_singleton] at hmem
      exact .alone (hmem ▸ hbody)
    · rw [hbody] at hmem
      simp only [List.mem_cons, (Comparison.symbol_ne_loneEquals comparison).symm, false_or,
        List.not_mem_nil, or_false] at hmem
      rcases hmem with rfl | rfl
      · exact .left comparison right hbody
      · exact .right left comparison hbody
  · rintro (hbody | ⟨comparison, right, hbody⟩ | ⟨left, comparison, hbody⟩)
    · exact .inl ⟨_, hbody⟩
    · exact .inr ⟨_, comparison, right, hbody⟩
    · exact .inr ⟨left, comparison, _, hbody⟩

/-- Every token that is no connective belongs to a clause. -/
theorem Condition.exists_mem_parts (hmem : token ∈ tokens)
    (h : Connective.ofToken? token = none) : ∃ clause ∈ parts tokens, token ∈ clause := by
  induction tokens using joinInduction with
  | clause tokens hfree => exact ⟨tokens, by simp [parts_of_free hfree], hmem⟩
  | join left connective right hfree ih =>
    rw [parts_concat connective hfree]
    have hword : token ≠ connective.word := Connective.ofToken?_eq_none_iff.1 h connective
    rcases List.mem_append.1 hmem with hleft | hright
    · obtain ⟨clause, hclause, htoken⟩ := ih hleft
      exact ⟨clause, List.mem_append_left _ hclause, htoken⟩
    · exact ⟨right, by simp, (List.mem_cons.1 hright).resolve_left hword⟩

/-- A lone equals sign is never an operator. -/
theorem Clause.not_grammatical_of_between {before after : List (List Char)} (hbefore : before ≠ [])
    (hafter : after ≠ []) (h : body tokens = before ++ Condition.loneEquals :: after) :
    ¬ Grammatical tokens := by
  obtain ⟨first, before, rfl⟩ := List.exists_cons_of_ne_nil hbefore
  obtain ⟨next, after, rfl⟩ := List.exists_cons_of_ne_nil hafter
  rintro (⟨token, hbody⟩ | ⟨left, comparison, right, hbody⟩)
  · simpa using h.symm.trans hbody
  · rw [hbody] at h
    cases before with
    | nil => exact Comparison.symbol_ne_loneEquals comparison (List.cons.inj (List.cons.inj h).2).1
    | cons second before =>
      have hlength := congrArg List.length h
      simp only [List.length_cons, List.length_append, List.length_nil] at hlength
      omega

end

namespace Condition

variable {s : List Char}

/-- Nothing is addressed by an equals sign. -/
theorem valueOf_loneEquals (context : Value) : Clause.valueOf loneEquals context = .null := by
  have hread : Operand.read loneEquals = .path loneEquals := rfl
  have hsegments : Path.segments loneEquals = [] := by decide
  rw [Clause.valueOf, Operand.lookup?, hread, Operand.value?, Value.resolve?, hsegments]
  rfl

/-- A condition that cannot be read makes `if` fail. -/
theorem conditional_of_evaluate_eq_error {context : Value} {fault : ConditionFault}
    (h : evaluate s context = .error fault) {node : Node}
    (harguments : node.arguments? = some (String.ofList s)) (body : List Node) :
    Helper.conditional context node body =
      .fail (.invalidArguments "if" fault.text node) context := by
  simp only [Helper.conditional, harguments, String.toList_ofList, h]
  rfl

/-- A condition with a lone equals sign has a truth only if the sign is an operand wherever it
stands, and then it counts as null. Between two tokens of a clause it is always refused, and `if`
fails because of its arguments. -/
theorem evaluate_of_loneEquals (h : loneEquals ∈ tokens s) (context : Value) :
    (∃ clause ∈ parts (tokens s), loneEquals ∈ clause) ∧
      ((∃ truth, evaluate s context = .ok truth) ↔
        (∀ clause ∈ parts (tokens s), loneEquals ∈ clause → Clause.TakesEquals clause) ∧
          ∀ clause ∈ parts (tokens s), loneEquals ∉ clause → Clause.Grammatical clause) ∧
      Clause.valueOf loneEquals context = .null ∧
      ∀ clause ∈ parts (tokens s), ∀ before after,
        Clause.body clause = before ++ loneEquals :: after → before ≠ [] → after ≠ [] →
        ∃ fault, evaluate s context = .error fault ∧
          ∀ node body, node.arguments? = some (String.ofList s) →
            Helper.conditional context node body =
              .fail (.invalidArguments "if" fault.text node) context := by
  refine ⟨exists_mem_parts h (by decide), ?_, valueOf_loneEquals context, ?_⟩
  · rw [exists_evaluate_iff, ← forall₂_and]
    refine forall₂_congr fun clause _ => ?_
    by_cases hmem : loneEquals ∈ clause <;> simp [hmem, Clause.grammatical_iff_takesEquals]
  · intro clause hclause before after hbody hbefore hafter
    cases hevaluate : evaluate s context with
    | ok truth =>
      have hgrammatical := exists_evaluate_iff.1 ⟨truth, hevaluate⟩ clause hclause
      exact absurd hgrammatical (Clause.not_grammatical_of_between hbefore hafter hbody)
    | error fault =>
      exact ⟨fault, rfl, fun node body harguments =>
        conditional_of_evaluate_eq_error hevaluate harguments body⟩

/-- The sign stands between two names, in a negated clause of a chain. -/
theorem evaluate_of_loneEquals_between :
    loneEquals ∈ tokens "x and not a=b".toList ∧
      [Clause.negation, ['a'], loneEquals, ['b']] ∈ parts (tokens "x and not a=b".toList) ∧
      ∃ fault, evaluate "x and not a=b".toList (.object []) = .error fault := by
  have hmem : loneEquals ∈ tokens "x and not a=b".toList := by decide
  have hclause : [Clause.negation, ['a'], loneEquals, ['b']] ∈
      parts (tokens "x and not a=b".toList) := by decide
  obtain ⟨-, -, -, hbetween⟩ := evaluate_of_loneEquals hmem (.object [])
  obtain ⟨fault, hfault, -⟩ := hbetween _ hclause [['a']] [['b']] rfl (by decide) (by decide)
  exact ⟨hmem, hclause, fault, hfault⟩

/-- A lone equals sign that is all of a condition counts as null. -/
theorem evaluate_loneEquals_alone :
    loneEquals ∈ tokens ['='] ∧ evaluate ['='] (.object []) = .ok false := by
  decide

end Condition

end Stencil
