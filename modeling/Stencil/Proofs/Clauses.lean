import Mathlib.Data.List.Induction
import Mathlib.Tactic.Common
import Stencil.Condition.Read

/-!
# The grammar of conditions

The tokens of a condition are cut at the connectives, in the only way there is, into clauses. A
clause is one token, or two tokens with an operator between them, after any number of negations. A
condition has a truth if all of its clauses have this form, and the first clause that has not
decides the fault; neither depends on the context. The truth is that of the clauses, joined from
left to right.

## Main definitions

* `Comparison.symbol`, `Connective.word`: the tokens of the operators and of the connectives.
* `Comparison.Compares`, `Connective.Joins`: what it takes for a comparison and for two joined
  clauses to hold.
* `Clause.Grammatical`, `Clause.Malformed`: whether tokens are a clause, and what is wrong if not.
* `Clause.Denotes`, `Condition.Denotes`: the truth of tokens in a context, by the rules of the
  language.
* `Condition.IsCut`: whether tokens are some clauses with connectives between them.
* `Condition.FirstFault`: the fault of the first clause that is malformed.
-/

namespace Stencil

/-! ## Operators and connectives -/

/-- The token of a comparison. -/
def Comparison.symbol : Comparison → List Char
  | equal => ['=', '=']
  | different => ['!', '=']
  | less => ['<']
  | lessOrEqual => ['<', '=']
  | greater => ['>']
  | greaterOrEqual => ['>', '=']

theorem Comparison.ofToken?_eq_some_iff {token : List Char} {comparison : Comparison} :
    ofToken? token = some comparison ↔ token = comparison.symbol := by
  constructor
  · intro h
    unfold ofToken? at h
    split at h
    case h_7 => contradiction
    all_goals
      obtain rfl := Option.some.inj h
      rfl
  · rintro rfl
    cases comparison <;> rfl

/-- What it takes for two values to compare: that they are equal or not, or are ordered so. -/
def Comparison.Compares (a b : Value) : Comparison → Prop
  | equal => a.equals b = true
  | different => a.equals b = false
  | less => a.order? b = some .lt
  | lessOrEqual => a.order? b = some .lt ∨ a.order? b = some .eq
  | greater => a.order? b = some .gt
  | greaterOrEqual => a.order? b = some .gt ∨ a.order? b = some .eq

theorem Comparison.holds_eq_true_iff {comparison : Comparison} {a b : Value} :
    comparison.holds a b = true ↔ comparison.Compares a b := by
  cases comparison <;> simp [holds, Compares]

/-- The token of a connective. -/
def Connective.word : Connective → List Char
  | and => ['a', 'n', 'd']
  | or => ['o', 'r']
  | xor => ['x', 'o', 'r']

theorem Connective.ofToken?_eq_some_iff {token : List Char} {connective : Connective} :
    ofToken? token = some connective ↔ token = connective.word := by
  constructor
  · intro h
    unfold ofToken? at h
    split at h
    case h_4 => contradiction
    all_goals
      obtain rfl := Option.some.inj h
      rfl
  · rintro rfl
    cases connective <;> rfl

/-- What it takes for two clauses to hold joined. -/
def Connective.Joins (p q : Prop) : Connective → Prop
  | and => p ∧ q
  | or => p ∨ q
  | xor => p ∧ ¬ q ∨ ¬ p ∧ q

theorem Connective.apply_eq_true_iff {connective : Connective} {a b : Bool} :
    connective.apply a b = true ↔ connective.Joins (a = true) (b = true) := by
  cases connective <;> cases a <;> cases b <;> simp [apply, Joins]

theorem Connective.ofToken?_eq_none_iff {token : List Char} :
    ofToken? token = none ↔ ∀ connective : Connective, token ≠ connective.word := by
  simp only [Option.eq_none_iff_forall_ne_some, ne_eq, ofToken?_eq_some_iff]

/-! ## Clauses -/

section

variable {ε α β : Type} {x : Except ε α} {f : α → β}

theorem map_eq_ok_iff {b : β} : x.map f = .ok b ↔ ∃ a, x = .ok a ∧ f a = b := by
  cases x <;> simp [Except.map]

theorem map_eq_error_iff {e : ε} : x.map f = .error e ↔ x = .error e := by
  cases x <;> simp [Except.map]

end

section

variable {tokens : List (List Char)} {token : List Char} {fault : ConditionFault} {truth : Bool}

namespace Test

/-- Whether tokens are a clause without negations. -/
def Grammatical (tokens : List (List Char)) : Prop :=
  (∃ token, tokens = [token]) ∨
    ∃ left comparison right, tokens = [left, Comparison.symbol comparison, right]

/-- What is wrong with tokens that are no clause without negations. -/
inductive Malformed : List (List Char) → ConditionFault → Prop
  | missingValue : Malformed [] .missingValue
  | unknownOperator {left operator right : List Char}
      (h : ∀ comparison : Comparison, operator ≠ comparison.symbol) :
      Malformed [left, operator, right] (.unknownOperator operator)
  | malformedClause {tokens : List (List Char)} (h : tokens.length = 2 ∨ 3 < tokens.length) :
      Malformed tokens (.malformedClause tokens)

theorem ofTokens_comparison (left right : List Char) (comparison : Comparison) :
    ofTokens [left, comparison.symbol, right] =
      .ok (.comparison (.read left) comparison (.read right)) := by
  simp only [ofTokens, Comparison.ofToken?_eq_some_iff.2 rfl]

theorem ofTokens_eq_ok_iff {test : Test} : ofTokens tokens = .ok test ↔
    (∃ token, tokens = [token] ∧ test = .value (.read token)) ∨
      ∃ left comparison right, tokens = [left, Comparison.symbol comparison, right] ∧
        test = .comparison (.read left) comparison (.read right) := by
  constructor
  · intro h
    unfold ofTokens at h
    split at h
    · contradiction
    · exact .inl ⟨_, rfl, (Except.ok.inj h).symm⟩
    · split at h
      · next hoperator =>
        obtain rfl := Comparison.ofToken?_eq_some_iff.1 hoperator
        exact .inr ⟨_, _, _, rfl, (Except.ok.inj h).symm⟩
      · contradiction
    · contradiction
  · rintro (⟨token, rfl, rfl⟩ | ⟨left, comparison, right, rfl, rfl⟩)
    · rfl
    · exact ofTokens_comparison left right comparison

theorem exists_ofTokens_iff : (∃ test, ofTokens tokens = .ok test) ↔ Grammatical tokens := by
  simp only [ofTokens_eq_ok_iff, Grammatical]
  grind

theorem ofTokens_eq_error_iff : ofTokens tokens = .error fault ↔ Malformed tokens fault := by
  constructor
  · intro h
    unfold ofTokens at h
    split at h
    · exact Except.error.inj h ▸ .missingValue
    · contradiction
    · split at h
      · contradiction
      · next hoperator =>
        refine Except.error.inj h ▸ .unknownOperator fun comparison heq => ?_
        rw [Comparison.ofToken?_eq_some_iff.2 heq] at hoperator
        contradiction
    · next hnone hone hthree =>
      refine Except.error.inj h ▸ .malformedClause ?_
      match tokens with
      | [] => contradiction
      | [token] => exact absurd rfl (hone token)
      | [_, _] => exact .inl rfl
      | [left, operator, right] => exact absurd rfl (hthree left operator right)
      | _ :: _ :: _ :: _ :: rest => exact .inr (by simp)
  · rintro (_ | h | h)
    · rfl
    · have hoperator := Option.eq_none_iff_forall_ne_some.2 fun comparison =>
        mt Comparison.ofToken?_eq_some_iff.1 (h comparison)
      simp only [ofTokens, hoperator]
    · match tokens with
      | [] | [_] | [_, _, _] => simp at h
      | [_, _] => rfl
      | _ :: _ :: _ :: _ :: _ => rfl

end Test

namespace Clause

/-- The tokens of a clause behind its leading negations. -/
def body (tokens : List (List Char)) : List (List Char) :=
  tokens.dropWhile (· == negation)

/-- Whether tokens are a clause. -/
def Grammatical (tokens : List (List Char)) : Prop :=
  Test.Grammatical (body tokens)

/-- What is wrong with tokens that are no clause. -/
def Malformed (tokens : List (List Char)) (fault : ConditionFault) : Prop :=
  Test.Malformed (body tokens) fault

/-- The value of a token as an operand: null where a path addresses nothing. -/
def valueOf (token : List Char) (context : Value) : Value :=
  (Operand.lookup? token context).getD .null

/-- The truth of the tokens of a clause: a value is true unless it counts as false, a comparison if
the values compare, and each negation in front flips the truth. -/
inductive Denotes (context : Value) : List (List Char) → Bool → Prop
  | value {token : List Char} {truth : Bool} (h : token ≠ negation)
      (htruth : truth = false ↔ (valueOf token context).Falsy) : Denotes context [token] truth
  | comparison {left right : List Char} {truth : Bool} (h : left ≠ negation)
      (comparison : Comparison)
      (htruth : truth = true ↔ comparison.Compares (valueOf left context) (valueOf right context)) :
      Denotes context [left, comparison.symbol, right] truth
  | negation {tokens : List (List Char)} {truth : Bool} (h : Denotes context tokens truth) :
      Denotes context (Clause.negation :: tokens) !truth

theorem ofTokens_eq_map (tokens : List (List Char)) :
    ofTokens tokens = (Test.ofTokens (body tokens)).map
      (Clause.mk (tokens.takeWhile (· == negation)).length) := by
  rw [ofTokens, body]
  cases Test.ofTokens (tokens.dropWhile (· == negation)) <;> rfl

theorem exists_ofTokens_iff : (∃ clause, ofTokens tokens = .ok clause) ↔ Grammatical tokens := by
  rw [Grammatical, ← Test.exists_ofTokens_iff, ofTokens_eq_map]
  cases Test.ofTokens (body tokens) <;> simp [Except.map]

theorem ofTokens_eq_error_iff : ofTokens tokens = .error fault ↔ Malformed tokens fault := by
  rw [Malformed, ← Test.ofTokens_eq_error_iff, ofTokens_eq_map, map_eq_error_iff]

/-- A negation in front changes only the number of negations. -/
theorem ofTokens_negation (tokens : List (List Char)) :
    ofTokens (negation :: tokens) =
      (ofTokens tokens).map fun clause => ⟨clause.negations + 1, clause.test⟩ := by
  have hbody : body (negation :: tokens) = body tokens := List.dropWhile_cons_of_pos (by simp)
  rw [ofTokens_eq_map, ofTokens_eq_map, hbody, List.takeWhile_cons_of_pos (by simp)]
  cases Test.ofTokens (body tokens) <;> rfl

theorem ofTokens_of_ne (h : token ≠ negation) (rest : List (List Char)) :
    ofTokens (token :: rest) = (Test.ofTokens (token :: rest)).map (Clause.mk 0) := by
  rw [ofTokens_eq_map, body, List.dropWhile_cons_of_neg (by simp [h]),
    List.takeWhile_cons_of_neg (by simp [h])]
  rfl

theorem holds_of_not_negated (test : Test) (context : Value) :
    (Clause.mk 0 test).holds context = test.holds context :=
  Bool.xor_false _

theorem holds_negated (clause : Clause) (context : Value) :
    (Clause.mk (clause.negations + 1) clause.test).holds context = !clause.holds context := by
  have hparity : ((clause.negations + 1) % 2 == 1) = !(clause.negations % 2 == 1) := by
    rcases Nat.mod_two_eq_zero_or_one clause.negations with h | h <;> simp [Nat.add_mod, h]
  simp only [holds, hparity, Bool.xor_not]

/-- Tokens have the truth of the clause that they are read as. -/
theorem denotes_iff {context : Value} :
    Denotes context tokens truth ↔ ∃ clause, ofTokens tokens = .ok clause ∧
      clause.holds context = truth := by
  constructor
  · intro h
    induction h with
    | @value token truth h htruth =>
      have hvalue : (valueOf token context).isTruthy = truth := by
        simpa using not_congr (Value.isTruthy_eq_false_iff.trans htruth.symm)
      exact ⟨_, ofTokens_of_ne h [], (holds_of_not_negated _ context).trans hvalue⟩
    | @comparison left right truth h comparison htruth =>
      have hholds : comparison.holds (valueOf left context) (valueOf right context) = truth :=
        Bool.eq_iff_iff.2 (Comparison.holds_eq_true_iff.trans htruth.symm)
      refine ⟨_, by rw [ofTokens_of_ne h, Test.ofTokens_comparison]; rfl, ?_⟩
      exact (holds_of_not_negated _ context).trans hholds
    | negation h ih =>
      obtain ⟨clause, hread, rfl⟩ := ih
      exact ⟨_, by rw [ofTokens_negation, hread]; rfl, holds_negated clause context⟩
  · rintro ⟨clause, hread, rfl⟩
    induction tokens generalizing clause with
    | nil => contradiction
    | cons token rest ih =>
      by_cases hnegation : token = negation
      · subst hnegation
        rw [ofTokens_negation] at hread
        obtain ⟨negated, hrest, rfl⟩ := map_eq_ok_iff.1 hread
        rw [holds_negated]
        exact .negation (ih negated hrest)
      · rw [ofTokens_of_ne hnegation] at hread
        obtain ⟨test, htest, rfl⟩ := map_eq_ok_iff.1 hread
        rw [holds_of_not_negated]
        rcases Test.ofTokens_eq_ok_iff.1 htest with ⟨_, heq, rfl⟩ | ⟨_, comparison, right, heq, rfl⟩
        · obtain ⟨rfl, rfl⟩ := List.cons.inj heq
          exact .value hnegation Value.isTruthy_eq_false_iff
        · obtain ⟨rfl, rfl⟩ := List.cons.inj heq
          exact .comparison hnegation comparison Comparison.holds_eq_true_iff

end Clause

/-! ## Cutting at connectives -/

namespace Condition

/-- Whether none of the tokens is a connective. -/
def FreeOfConnectives (clause : List (List Char)) : Prop :=
  ∀ connective : Connective, connective.word ∉ clause

/-- The tokens of clauses with connectives between them. -/
def joined (first : List (List Char)) (later : List (Connective × List (List Char))) :
    List (List Char) :=
  first ++ later.flatMap fun (connective, clause) => connective.word :: clause

/-- Whether tokens are some clauses with connectives between them, and none in them. -/
structure IsCut (tokens first : List (List Char))
    (later : List (Connective × List (List Char))) : Prop where
  joined_eq : joined first later = tokens
  free : ∀ clause ∈ first :: later.map Prod.snd, FreeOfConnectives clause

variable {left right first : List (List Char)} {later : List (Connective × List (List Char))}

theorem freeOfConnectives_iff :
    FreeOfConnectives tokens ↔ ∀ token ∈ tokens, Connective.ofToken? token = none := by
  simp only [FreeOfConnectives, Connective.ofToken?_eq_none_iff]
  exact ⟨fun h token hmem connective heq => h connective (heq ▸ hmem),
    fun h connective hmem => h _ hmem connective rfl⟩

theorem clauses_append (h : FreeOfConnectives first) (rest : List (List Char)) :
    clauses (first ++ rest) = (first ++ (clauses rest).1, (clauses rest).2) := by
  rw [freeOfConnectives_iff] at h
  induction first with
  | nil => rfl
  | cons token first ih =>
    obtain ⟨htoken, hfirst⟩ := List.forall_mem_cons.1 h
    simp [clauses, htoken, ih hfirst]

/-- Tokens without a connective make one clause. -/
theorem clauses_of_free (h : FreeOfConnectives tokens) : clauses tokens = (tokens, []) := by
  simpa [clauses] using clauses_append h []

theorem clauses_word (connective : Connective) (rest : List (List Char)) :
    clauses (connective.word :: rest) =
      ([], (connective, (clauses rest).1) :: (clauses rest).2) := by
  simp [clauses, Connective.ofToken?_eq_some_iff.2 rfl]

theorem clauses_of_isCut (h : IsCut tokens first later) : clauses tokens = (first, later) := by
  obtain ⟨rfl, hfree⟩ := h
  induction later generalizing first with
  | nil => simpa [joined] using clauses_of_free (hfree first List.mem_cons_self)
  | cons part later ih =>
    obtain ⟨hfirst, hlater⟩ := List.forall_mem_cons.1 hfree
    have hrest := ih hlater
    rw [joined] at hrest
    rw [joined, List.flatMap_cons, clauses_append hfirst, List.cons_append, clauses_word, hrest,
      List.append_nil]

theorem isCut_clauses (tokens : List (List Char)) :
    IsCut tokens (clauses tokens).1 (clauses tokens).2 := by
  induction tokens with
  | nil => exact ⟨rfl, by simp [clauses, FreeOfConnectives]⟩
  | cons token tokens ih =>
    obtain ⟨hjoined, hfree⟩ := ih
    cases htoken : Connective.ofToken? token with
    | some connective =>
      obtain rfl := Connective.ofToken?_eq_some_iff.1 htoken
      rw [clauses_word]
      exact ⟨congrArg (connective.word :: ·) hjoined,
        List.forall_mem_cons.2 ⟨fun _ => List.not_mem_nil, hfree⟩⟩
    | none =>
      have hclauses : clauses (token :: tokens) =
          (token :: (clauses tokens).1, (clauses tokens).2) := by
        simp [clauses, htoken]
      obtain ⟨hfirst, hlater⟩ := List.forall_mem_cons.1 hfree
      rw [hclauses]
      refine ⟨congrArg (token :: ·) hjoined, List.forall_mem_cons.2 ⟨?_, hlater⟩⟩
      exact freeOfConnectives_iff.2
        (List.forall_mem_cons.2 ⟨htoken, freeOfConnectives_iff.1 hfirst⟩)

/-- There is one way to cut tokens into clauses. -/
theorem isCut_iff : IsCut tokens first later ↔ clauses tokens = (first, later) :=
  ⟨clauses_of_isCut, fun h => by simpa [h] using isCut_clauses tokens⟩

theorem joined_concat (connective : Connective) :
    joined first (later ++ [(connective, right)]) =
      joined first later ++ connective.word :: right := by
  simp [joined]

/-- The last clause is cut off behind the last connective. -/
theorem clauses_concat (connective : Connective) (h : FreeOfConnectives right) :
    clauses (left ++ connective.word :: right) =
      ((clauses left).1, (clauses left).2 ++ [(connective, right)]) := by
  obtain ⟨hjoined, hfree⟩ := isCut_clauses left
  refine clauses_of_isCut ⟨by rw [joined_concat, hjoined], ?_⟩
  simpa [or_imp, forall_and, h] using hfree

/-- What holds of clauses, and is kept when a clause is joined to tokens, holds of all tokens. -/
theorem joinInduction {P : List (List Char) → Prop}
    (clause : ∀ tokens, FreeOfConnectives tokens → P tokens)
    (join : ∀ left connective right, FreeOfConnectives right → P left →
      P (left ++ Connective.word connective :: right)) (tokens : List (List Char)) : P tokens := by
  have hjoined (first : List (List Char)) (later : List (Connective × List (List Char)))
      (hfree : ∀ clause ∈ first :: later.map Prod.snd, FreeOfConnectives clause) :
      P (joined first later) := by
    induction later using List.reverseRecOn with
    | nil =>
      rw [joined, List.flatMap_nil, List.append_nil]
      exact clause first (hfree first List.mem_cons_self)
    | append_singleton later part ih =>
      obtain ⟨connective, right⟩ := part
      rw [joined_concat]
      refine join _ connective right (hfree right (by simp)) (ih fun clause hmem => hfree clause ?_)
      simp only [List.map_append, List.mem_cons, List.mem_append] at hmem ⊢
      exact hmem.imp id .inl
  obtain ⟨heq, hfree⟩ := isCut_clauses tokens
  exact heq ▸ hjoined _ _ hfree

/-- The clauses of tokens, without the connectives. -/
def parts (tokens : List (List Char)) : List (List (List Char)) :=
  (clauses tokens).1 :: (clauses tokens).2.map Prod.snd

theorem parts_of_free (h : FreeOfConnectives tokens) : parts tokens = [tokens] := by
  simp [parts, clauses_of_free h]

theorem parts_concat (connective : Connective) (h : FreeOfConnectives right) :
    parts (left ++ connective.word :: right) = parts left ++ [right] := by
  simp [parts, clauses_concat connective h]

/-! ## Conditions -/

/-- Whether a fault is that of the first clause that is malformed. -/
def FirstFault (clauses : List (List (List Char))) (fault : ConditionFault) : Prop :=
  ∃ before clause after, clauses = before ++ clause :: after ∧
    (∀ earlier ∈ before, Clause.Grammatical earlier) ∧ Clause.Malformed clause fault

theorem not_firstFault_nil : ¬ FirstFault [] fault := by
  rintro ⟨before, clause, after, heq, -⟩
  cases before <;> contradiction

/-- The last clause decides only if there is nothing wrong before it. -/
theorem firstFault_concat {clauses : List (List (List Char))} {last : List (List Char)} :
    FirstFault (clauses ++ [last]) fault ↔ FirstFault clauses fault ∨
      (∀ clause ∈ clauses, Clause.Grammatical clause) ∧ Clause.Malformed last fault := by
  constructor
  · rintro ⟨before, clause, after, heq, hbefore, hclause⟩
    rcases List.eq_nil_or_concat after with rfl | ⟨after, final, rfl⟩
    · obtain ⟨rfl, hlast⟩ := List.append_inj' heq rfl
      obtain rfl := List.singleton_inj.1 hlast
      exact .inr ⟨hbefore, hclause⟩
    · have hsplit : clauses ++ [last] = (before ++ clause :: after) ++ [final] := by simpa using heq
      obtain ⟨rfl, -⟩ := List.append_inj' hsplit rfl
      exact .inl ⟨before, clause, after, rfl, hbefore, hclause⟩
  · rintro (⟨before, clause, after, rfl, hbefore, hclause⟩ | ⟨hclauses, hlast⟩)
    · exact ⟨before, clause, after ++ [last], by simp, hbefore, hclause⟩
    · exact ⟨clauses, last, [], rfl, hclauses, hlast⟩

theorem firstFault_singleton {clause : List (List Char)} :
    FirstFault [clause] fault ↔ Clause.Malformed clause fault := by
  have hconcat : FirstFault ([] ++ [clause]) fault ↔ _ := firstFault_concat
  simpa [not_firstFault_nil] using hconcat

/-- The truth of the tokens of a condition: that of a clause, joined to the truth of everything
before the connective in front of it. -/
inductive Denotes (context : Value) : List (List Char) → Bool → Prop
  | clause {tokens : List (List Char)} {truth : Bool} (hfree : FreeOfConnectives tokens)
      (h : Clause.Denotes context tokens truth) : Denotes context tokens truth
  | join {left right : List (List Char)} {before last truth : Bool}
      (hleft : Denotes context left before) (connective : Connective)
      (hfree : FreeOfConnectives right) (hright : Clause.Denotes context right last)
      (htruth : truth = true ↔ connective.Joins (before = true) (last = true)) :
      Denotes context (left ++ connective.word :: right) truth

theorem ofTokens_of_free (h : FreeOfConnectives tokens) :
    ofTokens tokens = (Clause.ofTokens tokens).map fun clause => ⟨clause, []⟩ := by
  rw [ofTokens, clauses_of_free h]
  simp only [List.mapM_nil, pure_bind]
  cases Clause.ofTokens tokens <;> rfl

/-- The last clause is read last. -/
theorem ofTokens_concat (connective : Connective) (h : FreeOfConnectives right) :
    ofTokens (left ++ connective.word :: right) = ofTokens left >>= fun condition =>
      (Clause.ofTokens right).map fun clause =>
        ⟨condition.first, condition.rest ++ [(connective, clause)]⟩ := by
  rw [ofTokens, clauses_concat connective h, ofTokens]
  simp only [List.mapM_append, List.mapM_cons, List.mapM_nil, bind_assoc, pure_bind]
  cases Clause.ofTokens right <;> rfl

theorem holds_concat (condition : Condition) (connective : Connective) (clause : Clause)
    (context : Value) :
    (Condition.mk condition.first (condition.rest ++ [(connective, clause)])).holds context =
      connective.apply (condition.holds context) (clause.holds context) := by
  simp [holds]

/-- Tokens are a condition if their clauses are clauses. -/
theorem exists_ofTokens_iff (tokens : List (List Char)) :
    (∃ condition, ofTokens tokens = .ok condition) ↔
      ∀ clause ∈ parts tokens, Clause.Grammatical clause := by
  induction tokens using joinInduction with
  | clause tokens hfree =>
    rw [parts_of_free hfree, List.forall_mem_singleton, ← Clause.exists_ofTokens_iff,
      ofTokens_of_free hfree]
    cases Clause.ofTokens tokens <;> simp [Except.map]
  | join left connective right hfree ih =>
    rw [parts_concat connective hfree, List.forall_mem_append, ← ih, List.forall_mem_singleton,
      ← Clause.exists_ofTokens_iff, ofTokens_concat connective hfree]
    cases ofTokens left <;> cases Clause.ofTokens right <;> simp [Except.map, bind, Except.bind]

/-- The first clause that is malformed decides what is wrong with tokens. -/
theorem ofTokens_eq_error_iff (tokens : List (List Char)) {fault : ConditionFault} :
    ofTokens tokens = .error fault ↔ FirstFault (parts tokens) fault := by
  induction tokens using joinInduction with
  | clause tokens hfree =>
    rw [parts_of_free hfree, firstFault_singleton, ofTokens_of_free hfree, map_eq_error_iff,
      Clause.ofTokens_eq_error_iff]
  | join left connective right hfree ih =>
    rw [parts_concat connective hfree, firstFault_concat, ← ih, ← exists_ofTokens_iff,
      ← Clause.ofTokens_eq_error_iff, ofTokens_concat connective hfree]
    cases ofTokens left <;> cases Clause.ofTokens right <;> simp [Except.map, bind, Except.bind]

/-- Tokens have the truth of the condition that they are read as. -/
theorem denotes_iff {context : Value} :
    Denotes context tokens truth ↔ ∃ condition, ofTokens tokens = .ok condition ∧
      condition.holds context = truth := by
  constructor
  · intro h
    induction h with
    | clause hfree h =>
      obtain ⟨clause, hread, rfl⟩ := Clause.denotes_iff.1 h
      exact ⟨_, by rw [ofTokens_of_free hfree, hread]; rfl, rfl⟩
    | join hleft connective hfree hright htruth ih =>
      obtain ⟨condition, hread, rfl⟩ := ih
      obtain ⟨clause, hlast, rfl⟩ := Clause.denotes_iff.1 hright
      refine ⟨_, by rw [ofTokens_concat connective hfree, hread, hlast]; rfl,
        (holds_concat ..).trans ?_⟩
      exact Bool.eq_iff_iff.2 (Connective.apply_eq_true_iff.trans htruth.symm)
  · rintro ⟨condition, hread, rfl⟩
    induction tokens using joinInduction generalizing condition with
    | clause tokens hfree =>
      rw [ofTokens_of_free hfree] at hread
      obtain ⟨clause, hclause, rfl⟩ := map_eq_ok_iff.1 hread
      exact .clause hfree (Clause.denotes_iff.2 ⟨clause, hclause, rfl⟩)
    | join left connective right hfree ih =>
      rw [ofTokens_concat connective hfree] at hread
      cases hleft : ofTokens left with
      | error fault =>
        rw [hleft] at hread
        contradiction
      | ok before =>
        rw [hleft] at hread
        obtain ⟨clause, hclause, rfl⟩ := map_eq_ok_iff.1 hread
        rw [holds_concat]
        exact .join (ih before hleft) connective hfree
          (Clause.denotes_iff.2 ⟨clause, hclause, rfl⟩) Connective.apply_eq_true_iff

end Condition

end

/-! ## Texts of conditions -/

namespace Condition

variable {s : List Char} {context : Value} {fault : ConditionFault} {truth : Bool}

theorem evaluate_eq_map (s : List Char) (context : Value) :
    evaluate s context = (ofTokens (tokens s)).map (·.holds context) := by
  rw [evaluate, read]
  cases ofTokens (tokens s) <;> rfl

theorem exists_evaluate_iff : (∃ truth, evaluate s context = .ok truth) ↔
    ∀ clause ∈ parts (tokens s), Clause.Grammatical clause := by
  simp only [evaluate_eq_map, ← exists_ofTokens_iff, map_eq_ok_iff]
  exact ⟨fun ⟨_, condition, h, _⟩ => ⟨condition, h⟩, fun ⟨condition, h⟩ => ⟨_, condition, h, rfl⟩⟩

theorem evaluate_eq_error_iff :
    evaluate s context = .error fault ↔ FirstFault (parts (tokens s)) fault := by
  rw [evaluate_eq_map, map_eq_error_iff, ofTokens_eq_error_iff]

theorem evaluate_eq_ok_iff : evaluate s context = .ok truth ↔ Denotes context (tokens s) truth := by
  rw [evaluate_eq_map, map_eq_ok_iff, denotes_iff]

/-- There is one way to cut a condition into clauses. It has a truth, in whatever context, if all of
them are clauses, and else the fault of the first one that is not. Its truth is that of its clauses,
joined from left to right. -/
theorem evaluate_by_clauses (s : List Char) :
    ∃ first later,
      (∀ first' later', IsCut (tokens s) first' later' ↔ first' = first ∧ later' = later) ∧
      ∀ context,
        ((∃ truth, evaluate s context = .ok truth) ↔
          ∀ clause ∈ first :: later.map Prod.snd, Clause.Grammatical clause) ∧
        (∀ fault, evaluate s context = .error fault ↔
          FirstFault (first :: later.map Prod.snd) fault) ∧
        ∀ truth, evaluate s context = .ok truth ↔ Denotes context (tokens s) truth := by
  refine ⟨(clauses (tokens s)).1, (clauses (tokens s)).2, fun first later => ?_, fun context =>
    ⟨exists_evaluate_iff, fun fault => evaluate_eq_error_iff, fun truth => evaluate_eq_ok_iff⟩⟩
  rw [isCut_iff, Prod.ext_iff]
  exact and_congr eq_comm eq_comm

/-- The three connectives, each on clauses of all truths. -/
example :
    let truths (connective : String) := [("f", "f"), ("f", "t"), ("t", "f"), ("t", "t")].map
      fun (left, right) =>
        evaluate (left ++ connective ++ right).toList (.object [("t", .bool true)])
    truths " and " = [.ok false, .ok false, .ok false, .ok true] ∧
      truths " or " = [.ok false, .ok true, .ok true, .ok true] ∧
      truths " xor " = [.ok false, .ok true, .ok true, .ok false] := by decide

/-- There is no precedence among connectives. -/
example : evaluate "t or f and f".toList (.object [("t", .bool true)]) = .ok false := by decide

end Condition

end Stencil
