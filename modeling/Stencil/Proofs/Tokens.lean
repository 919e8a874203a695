import Mathlib.Data.List.Basic
import Mathlib.Tactic.Common
import Stencil.Condition.Read
import Stencil.Proofs.Pieces

/-!
# The tokens of conditions

A condition is cut into tokens twice, at white space and then at operators, and quotes are looked
for anew each time. Both cuts agree on what stands outside quotes, since a piece never starts inside
them. So there is a normal form: the tokens with a space between any two of them, which have the
same tokens again. White space next to an operator may be left out as long as no equals sign joins
an operator or an exclamation mark in front of it: the tokens change then, and only then.

## Main definitions

* `Condition.operators`, `Condition.IsToken`: what a token may be.
* `Condition.Tokenized`: a text as tokens, with white space where there has to be some.
* `Condition.Fuses`: whether an equals sign joins what stands in front of it.
-/

namespace Stencil

namespace Text

/-- A text without the characters of a class outside quotes, if the quote `open?` is open in front
of it. -/
def dropUnquoted (p : Char → Bool) (open? : Quoting) : List Char → List Char
  | [] => []
  | c :: s =>
    if open?.bares c && p c then dropUnquoted p (open?.next c) s
    else c :: dropUnquoted p (open?.next c) s

variable {p : Char → Bool} {open? : Quoting} {c : Char} {s : List Char}

/-- Where the class has no character outside quotes, nothing is left out. -/
theorem dropUnquoted_append (h : ∀ c ∈ unquotedFrom open? s, p c = false) (t : List Char) :
    dropUnquoted p open? (s ++ t) = s ++ dropUnquoted p (open?.after s) t := by
  induction s generalizing open? with
  | nil => rfl
  | cons c s ih => by_cases hbare : open?.bares c <;> simp_all [unquotedFrom, dropUnquoted]

theorem isBlank_of_isQuote (h : isQuote c = true) : isBlank c = false :=
  isBlank_eq_false_of_disjoint (by decide) h

theorem isQuote_of_isBlank (h : isBlank c = true) : isQuote c = false :=
  Bool.eq_false_iff.2 fun hquote => by simp [isBlank_of_isQuote hquote] at h

end Text

namespace Condition

open Text (Quoting isBlank isQuote unquoted unquotedFrom piecesFrom splitUnquoted
  StartsWithSeparator)

/-! ## Tokens and their ends -/

/-- The operators, and the equals sign, which is cut out like one. -/
def operators : List (List Char) :=
  ["==", "!=", "<", "<=", ">", ">=", "="].map String.toList

/-- Whether a token may stand for a value: it is not empty, and has neither white space nor operators
outside quotes, exclamation marks apart. -/
def IsOperand (token : List Char) : Prop :=
  token ≠ [] ∧ ∀ c ∈ unquoted token, isBlank c = false ∧ isSingleOperator c = false

def IsToken (token : List Char) : Prop :=
  token ∈ operators ∨ IsOperand token

/-- Whether an equals sign right behind a token would be part of it, or of an operator that starts
in it. -/
def Extensible (token : List Char) : Prop :=
  (∃ c, token = [c] ∧ isSingleOperator c = true) ∨ token.getLast? = some '!'

/-- Whether an operator starts a text. -/
def StartsWithOperator (s : List Char) : Prop :=
  (∃ c ∈ s.head?, isSingleOperator c = true) ∨ ['!', '='] <+: s

/-- Whether a token ends where `rest` starts. -/
def Ends (token rest : List Char) : Prop :=
  rest = [] ∨ Quoting.after none token = none ∧
    (token ∈ operators ∨ StartsWithSeparator isBlank rest ∨ StartsWithOperator rest) ∧
    (Extensible token → rest.head? ≠ some '=')

/-- Whether a text is made of tokens, in order, with white space in front of them, between them and
behind them. Where two tokens meet, one of them is an operator. -/
inductive Tokenized : List Char → List (List Char) → Prop
  | nil : Tokenized [] []
  | blank {c : Char} {s : List Char} {tokens : List (List Char)} (hc : isBlank c = true)
    (h : Tokenized s tokens) : Tokenized (c :: s) tokens
  | token {token rest : List Char} {tokens : List (List Char)} (htoken : IsToken token)
    (hends : Ends token rest) (h : Tokenized rest tokens) :
    Tokenized (token ++ rest) (token :: tokens)

variable {c : Char} {s rest token word operator : List Char} {open? : Quoting}
  {tokens' : List (List Char)}

/-! ## Operators -/

/-- What is true of each operator is true of all of them. -/
theorem forall_operators {P : List Char → Prop} (hoperator : operator ∈ operators)
    (hdoubled : ∀ c, isDoubledOperator c = true → P [c, '='])
    (hsingle : ∀ c, isSingleOperator c = true → P [c]) : P operator := by
  simp only [operators, List.map_cons, List.map_nil, List.mem_cons, List.not_mem_nil, or_false]
    at hoperator
  rcases hoperator with rfl | rfl | rfl | rfl | rfl | rfl | rfl
  · exact hdoubled '=' rfl
  · exact hdoubled '!' rfl
  · exact hsingle '<' rfl
  · exact hdoubled '<' rfl
  · exact hsingle '>' rfl
  · exact hdoubled '>' rfl
  · exact hsingle '=' rfl

theorem isDoubledOperator_of_isSingleOperator (h : isSingleOperator c = true) :
    isDoubledOperator c = true := by
  rw [isDoubledOperator, h, Bool.true_or]

theorem isQuote_of_isDoubledOperator (h : isDoubledOperator c = true) :
    isQuote c = false ∧ isBlank c = false := by
  simp only [isDoubledOperator, isSingleOperator, Bool.or_eq_true, beq_iff_eq] at h
  rcases h with ((rfl | rfl) | rfl) | rfl <;> decide

theorem isQuote_of_isSingleOperator (h : isSingleOperator c = true) :
    isQuote c = false ∧ isBlank c = false :=
  isQuote_of_isDoubledOperator (isDoubledOperator_of_isSingleOperator h)

/-! ## Cutting out operators -/

theorem tokensFrom_doubled (h : isDoubledOperator c = true) (s : List Char) :
    tokensFrom none (c :: '=' :: s) =
      ([], [c, '='] :: (tokensFrom none s).1 :: (tokensFrom none s).2) := by
  simp [tokensFrom, h]

theorem tokensFrom_single (h : isSingleOperator c = true) (hs : s.head? ≠ some '=') :
    tokensFrom none (c :: s) = ([], [c] :: (tokensFrom none s).1 :: (tokensFrom none s).2) := by
  conv_lhs => unfold tokensFrom
  split
  · contradiction
  · next heq =>
    obtain ⟨rfl, rfl⟩ := List.cons.inj heq
    simp at hs
  · next heq =>
    obtain ⟨rfl, rfl⟩ := List.cons.inj heq
    simp [h]

/-- A token goes on through a character that starts no operator. -/
theorem tokensFrom_ordinary
    (h : open? = none → isSingleOperator c = false ∧ (c = '!' → s.head? ≠ some '=')) :
    tokensFrom open? (c :: s) =
      (c :: (tokensFrom (open?.next c) s).1, (tokensFrom (open?.next c) s).2) := by
  conv_lhs => unfold tokensFrom
  split
  · contradiction
  · next heq =>
    obtain ⟨rfl, rfl⟩ := List.cons.inj heq
    have hdoubled : (open?.isNone && isDoubledOperator c) = false := by
      cases open? <;> simp_all [isDoubledOperator]
    simp [hdoubled]
  · next heq =>
    obtain ⟨rfl, rfl⟩ := List.cons.inj heq
    have hsingle : (open?.isNone && isSingleOperator c) = false := by
      cases open? <;> simp_all
    simp [hsingle]

/-- An operand goes on until it ends. The induction goes along the operand, so that the quote that
is open changes. -/
theorem tokensFrom_append (h : ∀ c ∈ unquotedFrom open? word, isSingleOperator c = false)
    (hrest : word.getLast? = some '!' → rest.head? ≠ some '=') :
    tokensFrom open? (word ++ rest) =
      (word ++ (tokensFrom (open?.after word) rest).1, (tokensFrom (open?.after word) rest).2) := by
  induction word generalizing open? with
  | nil => rfl
  | cons c word ih =>
    have hlater : ∀ d ∈ unquotedFrom (open?.next c) word, isSingleOperator d = false := by
      intro d hd
      refine h d ?_
      by_cases hbare : open?.bares c = true <;> simp [unquotedFrom, hbare, hd]
    have hlast : word.getLast? = some '!' → rest.head? ≠ some '=' := by
      intro hlast
      refine hrest ?_
      rw [List.getLast?_cons, hlast]
      rfl
    have hordinary : open? = none →
        isSingleOperator c = false ∧ (c = '!' → (word ++ rest).head? ≠ some '=') := by
      rintro rfl
      refine ⟨Bool.eq_false_iff.2 fun hsingle => ?_, ?_⟩
      · have hbare := Text.bares_none (isQuote_of_isSingleOperator hsingle).1
        simp [h c (by simp [unquotedFrom, hbare])] at hsingle
      · rintro rfl
        cases word with
        | nil => exact hrest rfl
        | cons d word =>
          rintro heq
          obtain rfl : d = '=' := Option.some.inj heq
          exact absurd (hlater '=' List.mem_cons_self) (by decide)
    rw [List.cons_append, tokensFrom_ordinary hordinary, ih hlater hlast]
    rfl

/-- Where an operator starts, a token ends. -/
theorem tokensFrom_of_startsWithOperator (h : StartsWithOperator s) : (tokensFrom none s).1 = [] := by
  rcases h with ⟨c, hhead, hc⟩ | ⟨t, rfl⟩
  · obtain ⟨t, rfl⟩ := List.head?_eq_some_iff.1 hhead
    by_cases ht : t.head? = some '='
    · obtain ⟨t, rfl⟩ := List.head?_eq_some_iff.1 ht
      rw [tokensFrom_doubled (isDoubledOperator_of_isSingleOperator hc)]
    · rw [tokensFrom_single hc ht]
  · exact congrArg Prod.fst (tokensFrom_doubled rfl t)

theorem cutOperators_operator (hoperator : operator ∈ operators)
    (hs : Extensible operator → s.head? ≠ some '=') :
    cutOperators (operator ++ s) = operator :: cutOperators s := by
  refine forall_operators (P := fun operator => (Extensible operator → s.head? ≠ some '=') →
    cutOperators (operator ++ s) = operator :: cutOperators s) hoperator ?_ ?_ hs
  · intro c hc _
    rw [cutOperators, List.cons_append, List.singleton_append, tokensFrom_doubled hc]
    simp [cutOperators]
  · intro c hc hs
    rw [cutOperators, List.singleton_append, tokensFrom_single hc (hs (.inl ⟨c, rfl, hc⟩))]
    simp [cutOperators]

/-- The first token is cut off a word. -/
theorem cutOperators_append (htoken : IsToken token)
    (hs : s = [] ∨ Quoting.after none token = none ∧ (token ∈ operators ∨ StartsWithOperator s))
    (hextensible : Extensible token → s.head? ≠ some '=') :
    cutOperators (token ++ s) = token :: cutOperators s := by
  by_cases hoperator : token ∈ operators
  · exact cutOperators_operator hoperator hextensible
  · obtain ⟨hne, hunquoted⟩ := htoken.resolve_left hoperator
    rw [cutOperators, tokensFrom_append (fun c hc => (hunquoted c hc).2)
      fun hlast => hextensible (.inr hlast)]
    rcases hs with rfl | ⟨hclosed, hstarts⟩
    · simp [cutOperators, tokensFrom, hne]
    · have hempty := tokensFrom_of_startsWithOperator (hstarts.resolve_left hoperator)
      simp [cutOperators, hclosed, hempty, hne]

/-! ## Cutting at white space -/

theorem tokens_eq (s : List Char) : tokens s = cutOperators (piecesFrom isBlank none s).1 ++
    (piecesFrom isBlank none s).2.flatMap cutOperators := by
  have key : ∀ pieces : List (List Char),
      (pieces.filter fun piece => !piece.isEmpty).flatMap cutOperators =
        pieces.flatMap cutOperators := by
    intro pieces
    induction pieces with
    | nil => rfl
    | cons piece pieces ih => cases piece <;> simp_all [cutOperators, tokensFrom]
  rw [tokens, splitUnquoted, key, List.flatMap_cons]

/-- Operators are made of characters that are neither quotes nor white space. -/
theorem isQuote_of_mem_operators :
    ∀ operator ∈ operators, ∀ c ∈ operator, isQuote c = false ∧ isBlank c = false := by
  decide

theorem IsToken.ne_nil (h : IsToken token) : token ≠ [] := by
  rcases h with hoperator | ⟨hne, -⟩
  · rintro rfl
    exact absurd hoperator (by decide)
  · exact hne

theorem IsToken.isBlank_eq_false (h : IsToken token) : ∀ c ∈ unquoted token, isBlank c = false := by
  rcases h with hoperator | ⟨-, hunquoted⟩
  · have hplain := isQuote_of_mem_operators token hoperator
    rw [Text.unquoted_eq_self fun c hc => (hplain c hc).1]
    exact fun c hc => (hplain c hc).2
  · exact fun c hc => (hunquoted c hc).1

theorem after_operator (hoperator : operator ∈ operators) : Quoting.after none operator = none :=
  Text.after_eq_none fun c hc => (isQuote_of_mem_operators operator hoperator c hc).1

/-- A piece starts the text that it is cut off. -/
theorem piecesFrom_fst_isPrefix (open? : Quoting) (s : List Char) :
    (piecesFrom isBlank open? s).1 <+: s := by
  induction s generalizing open? with
  | nil => exact List.prefix_refl []
  | cons c s ih =>
    unfold piecesFrom
    split
    · exact List.nil_prefix
    · exact List.cons_prefix_cons.2 ⟨rfl, ih _⟩

/-- A piece goes as far as the characters of an operator at least. -/
theorem startsWithOperator_fst (h : StartsWithOperator s) :
    StartsWithOperator (piecesFrom isBlank none s).1 := by
  have key (front rest : List Char) (hfront : ∀ c ∈ front, isQuote c = false ∧ isBlank c = false) :
      (piecesFrom isBlank none (front ++ rest)).1 =
        front ++ (piecesFrom isBlank none rest).1 := by
    have hquote : ∀ c ∈ front, isQuote c = false := fun c hc => (hfront c hc).1
    have hunquoted : ∀ c ∈ unquoted front, isBlank c = false := by
      rw [Text.unquoted_eq_self hquote]
      exact fun c hc => (hfront c hc).2
    rw [Text.piecesFrom_append_of_unquoted hunquoted, Text.after_eq_none hquote]
  rcases h with ⟨c, hhead, hc⟩ | ⟨t, rfl⟩
  · obtain ⟨t, rfl⟩ := List.head?_eq_some_iff.1 hhead
    have hplain := isQuote_of_isSingleOperator hc
    rw [← List.singleton_append, key [c] t (by simpa using hplain)]
    exact .inl ⟨c, rfl, hc⟩
  · rw [key ['!', '='] t (isQuote_of_mem_operators _ (by decide))]
    exact .inr (List.prefix_append _ _)

/-- A token is the first one where it ends. -/
theorem tokens_append (htoken : IsToken token) (hends : Ends token rest) :
    tokens (token ++ rest) = token :: tokens rest := by
  rw [tokens_eq, Text.piecesFrom_append_of_unquoted htoken.isBlank_eq_false]
  rcases hends with rfl | ⟨hclosed, hstarts, hextensible⟩
  · simp only [piecesFrom]
    rw [cutOperators_append htoken (.inl rfl) (by simp)]
    rfl
  · obtain ⟨t, ht⟩ := piecesFrom_fst_isPrefix none rest
    have hpiece : (piecesFrom isBlank none rest).1 = [] ∨ Quoting.after none token = none ∧
        (token ∈ operators ∨ StartsWithOperator (piecesFrom isBlank none rest).1) := by
      rcases hstarts with hoperator | ⟨c, hhead, hquote, hc⟩ | hstarts
      · exact .inr ⟨hclosed, .inl hoperator⟩
      · obtain ⟨u, rfl⟩ := List.head?_eq_some_iff.1 hhead
        rw [Text.piecesFrom_cons_of_bares (Text.bares_none hquote) hc]
        exact .inl rfl
      · exact .inr ⟨hclosed, .inr (startsWithOperator_fst hstarts)⟩
    have hhead : Extensible token → (piecesFrom isBlank none rest).1.head? ≠ some '=' := by
      intro htoken heq
      refine hextensible htoken ?_
      rw [← ht, List.head?_append, heq]
      rfl
    rw [hclosed, cutOperators_append htoken hpiece hhead, tokens_eq rest, List.cons_append]

@[simp] theorem tokens_nil : tokens [] = [] := rfl

theorem IsToken.tokens_eq (h : IsToken token) : tokens token = [token] := by
  have hone := tokens_append h (.inl rfl)
  rwa [List.append_nil] at hone

theorem tokens_cons (hc : isBlank c = true) (s : List Char) : tokens (c :: s) = tokens s := by
  rw [tokens, Text.splitUnquoted_cons ⟨Text.isQuote_of_isBlank hc, hc⟩, tokens]

/-- A token ends before white space. -/
theorem tokens_append_blank (htoken : IsToken token) (hclosed : Quoting.after none token = none)
    (hc : isBlank c = true) (s : List Char) : tokens (token ++ c :: s) = token :: tokens s := by
  have hstarts : StartsWithSeparator isBlank (c :: s) := ⟨c, rfl, Text.isQuote_of_isBlank hc, hc⟩
  have hhead : (c :: s).head? ≠ some '=' := by
    rintro heq
    obtain rfl : c = '=' := Option.some.inj heq
    exact absurd hc (by decide)
  rw [tokens_append htoken (.inr ⟨hclosed, .inr (.inl hstarts), fun _ => hhead⟩), tokens_cons hc]

/-! ## Tokens of a text -/

theorem tokens_of_tokenized (h : Tokenized s tokens') : tokens s = tokens' := by
  induction h with
  | nil => rfl
  | blank hc _ ih => rw [tokens_cons hc, ih]
  | token htoken hends _ ih => rw [tokens_append htoken hends, ih]

theorem mem_operators_doubled (h : isDoubledOperator c = true) : [c, '='] ∈ operators := by
  simp only [isDoubledOperator, isSingleOperator, Bool.or_eq_true, beq_iff_eq] at h
  rcases h with ((rfl | rfl) | rfl) | rfl <;> decide

theorem mem_operators_single (h : isSingleOperator c = true) : [c] ∈ operators := by
  simp only [isSingleOperator, Bool.or_eq_true, beq_iff_eq] at h
  rcases h with (rfl | rfl) | rfl <;> decide

theorem not_extensible_doubled (c : Char) : ¬ Extensible [c, '='] := by
  simp [Extensible]

theorem ends_doubled (h : isDoubledOperator c = true) (rest : List Char) : Ends [c, '='] rest :=
  have hoperator := mem_operators_doubled h
  .inr ⟨after_operator hoperator, .inl hoperator, fun h => absurd h (not_extensible_doubled c)⟩

theorem tokens_doubled (h : isDoubledOperator c = true) (s : List Char) :
    tokens (c :: '=' :: s) = [c, '='] :: tokens s :=
  tokens_append (.inl (mem_operators_doubled h)) (ends_doubled h s)

/-- An operator that starts a text takes the equals sign behind its first character. -/
theorem exists_operator (h : StartsWithOperator s) :
    ∃ operator rest, s = operator ++ rest ∧ operator ∈ operators ∧ Ends operator rest := by
  rcases h with ⟨c, hhead, hc⟩ | ⟨rest, rfl⟩
  · obtain ⟨t, rfl⟩ := List.head?_eq_some_iff.1 hhead
    by_cases ht : t.head? = some '='
    · obtain ⟨rest, rfl⟩ := List.head?_eq_some_iff.1 ht
      have hc := isDoubledOperator_of_isSingleOperator hc
      exact ⟨[c, '='], rest, rfl, mem_operators_doubled hc, ends_doubled hc rest⟩
    · have hoperator := mem_operators_single hc
      exact ⟨[c], t, rfl, hoperator, .inr ⟨after_operator hoperator, .inl hoperator, fun _ => ht⟩⟩
  · exact ⟨['!', '='], rest, rfl, by decide, ends_doubled rfl rest⟩

/-- Every text goes on to white space or an operator outside quotes, or to its end. -/
theorem exists_word (open? : Quoting) (hopen : ∀ q ∈ open?, isQuote q = true) (s : List Char) :
    ∃ word rest, s = word ++ rest ∧
    (∀ c ∈ unquotedFrom open? word, isBlank c = false ∧ isSingleOperator c = false) ∧
    (rest = [] ∨ open?.after word = none ∧
      (StartsWithSeparator isBlank rest ∨ StartsWithOperator rest) ∧
      (word.getLast? = some '!' → rest.head? ≠ some '=')) := by
  induction s generalizing open? with
  | nil => exact ⟨[], [], rfl, by simp [unquotedFrom], .inl rfl⟩
  | cons c s ih =>
    by_cases hstop : open? = none ∧
        (StartsWithSeparator isBlank (c :: s) ∨ StartsWithOperator (c :: s))
    · exact ⟨[], c :: s, rfl, by simp [unquotedFrom], .inr ⟨hstop.1, hstop.2, by simp⟩⟩
    · obtain ⟨word, rest, rfl, hword, hrest⟩ := ih _ (Text.isQuote_of_mem_next hopen c)
      refine ⟨c :: word, rest, rfl, ?_, hrest.imp_right ?_⟩
      · by_cases hbare : open?.bares c = true
        · have hnone := (Quoting.next_of_bares hbare).1
          have hquote : isQuote c = false := by simpa [Quoting.bares, hnone] using hbare
          obtain ⟨hblank, hstarts⟩ := not_or.1 fun h => hstop ⟨hnone, h⟩
          have hc : isBlank c = false ∧ isSingleOperator c = false :=
            ⟨Bool.eq_false_iff.2 fun h => hblank ⟨c, rfl, hquote, h⟩,
              Bool.eq_false_iff.2 fun h => hstarts (.inl ⟨c, rfl, h⟩)⟩
          simpa [unquotedFrom, hbare, hc] using hword
        · simpa [unquotedFrom, hbare] using hword
      · rintro ⟨hclosed, hstarts, hlast⟩
        refine ⟨hclosed, hstarts, fun h => ?_⟩
        cases word with
        | cons d word => exact hlast (by simpa using h)
        | nil =>
          -- Only an exclamation mark outside quotes can be the last character of a word that ends.
          obtain rfl : c = '!' := by simpa using h
          intro hhead
          obtain ⟨t, rfl⟩ := List.head?_eq_some_iff.1 hhead
          have hnone : open? = none := Text.eq_none_of_next_eq_none hopen rfl hclosed
          exact hstop ⟨hnone, .inr (.inr (List.prefix_append ['!', '='] t))⟩

theorem IsOperand.getLast?_eq (h : IsOperand token) (hextensible : Extensible token) :
    token.getLast? = some '!' := by
  refine hextensible.resolve_left ?_
  rintro ⟨c, rfl, hc⟩
  have hmem : c ∈ unquoted [c] := by
    rw [Text.unquoted_cons (isQuote_of_isSingleOperator hc).1]
    exact List.mem_cons_self
  simp [(h.2 c hmem).2] at hc

theorem exists_tokenized (s : List Char) : ∃ tokens, Tokenized s tokens := by
  by_cases hstarts : StartsWithOperator s
  · obtain ⟨operator, rest, hs, hoperator, hends⟩ := exists_operator hstarts
    obtain ⟨tokens, h⟩ := exists_tokenized rest
    exact ⟨operator :: tokens, hs ▸ .token (.inl hoperator) hends h⟩
  · obtain ⟨word, rest, hs, hword, hrest⟩ := exists_word none (by simp) s
    by_cases hne : word = []
    · subst hne
      rw [List.nil_append] at hs
      rcases hrest with rfl | ⟨-, ⟨c, hhead, -, hc⟩ | hrest, -⟩
      · exact ⟨[], hs ▸ .nil⟩
      · obtain ⟨t, rfl⟩ := List.head?_eq_some_iff.1 hhead
        obtain ⟨tokens, h⟩ := exists_tokenized t
        exact ⟨tokens, hs ▸ .blank hc h⟩
      · exact absurd (hs ▸ hrest) hstarts
    · obtain ⟨tokens, h⟩ := exists_tokenized rest
      have hends : Ends word rest := by
        refine hrest.imp_right fun ⟨hclosed, hrest, hlast⟩ => ⟨hclosed, .inr hrest, fun h => ?_⟩
        exact hlast (IsOperand.getLast?_eq ⟨hne, hword⟩ h)
      exact ⟨word :: tokens, hs ▸ .token (.inr ⟨hne, hword⟩) hends h⟩
termination_by s.length
decreasing_by
  · have hpos := List.length_pos_iff.2 (IsToken.ne_nil (.inl hoperator))
    simp [hs]
    omega
  · simp [hs]
  · have hpos := List.length_pos_iff.2 hne
    simp [hs]
    omega

theorem tokenized_tokens (s : List Char) : Tokenized s (tokens s) := by
  obtain ⟨tokens', h⟩ := exists_tokenized s
  rwa [tokens_of_tokenized h]

theorem Tokenized.isToken (h : Tokenized s tokens') : ∀ token ∈ tokens', IsToken token := by
  induction h with
  | nil => simp
  | blank _ _ ih => exact ih
  | token htoken _ _ ih => exact List.forall_mem_cons.2 ⟨htoken, ih⟩

/-- Of a text only white space is no part of a token. -/
theorem Tokenized.flatten_eq (h : Tokenized s tokens') :
    tokens'.flatten = Text.dropUnquoted isBlank none s := by
  induction h with
  | nil => rfl
  | @blank c s _ hc _ ih =>
    have hquote := Text.isQuote_of_isBlank hc
    have hbare := Text.bares_none hquote
    simp [Text.dropUnquoted, hbare, hc, (Quoting.next_of_bares hbare).2, ih]
  | token htoken hends _ ih =>
    rw [List.flatten_cons, ih, Text.dropUnquoted_append htoken.isBlank_eq_false]
    rcases hends with rfl | ⟨hclosed, -⟩
    · rfl
    · rw [hclosed]

/-- Tokens have a space between any two of them, which ends the first one. -/
theorem Tokenized.tokens_intercalate (h : Tokenized s tokens') :
    tokens ([' '].intercalate tokens') = tokens' := by
  induction h with
  | nil => rfl
  | blank _ _ ih => exact ih
  | @token token rest tokens' htoken hends h ih =>
    cases tokens' with
    | nil => simpa using htoken.tokens_eq
    | cons next later =>
      have hne : rest ≠ [] := by
        rintro rfl
        exact absurd (tokens_of_tokenized h) (List.cons_ne_nil next later).symm
      rw [List.intercalate_cons_cons, List.append_assoc, List.singleton_append,
        tokens_append_blank htoken (hends.resolve_left hne).1 (by decide), ih]

theorem evaluate_congr {t : List Char} (h : tokens s = tokens t) (context : Value) :
    evaluate s context = evaluate t context := by
  rw [evaluate, evaluate, read, read, h]

/-! ## Seams -/

/-- Whether an operator ends a text in which no quote stays open. -/
def EndsWithOperator (s : List Char) : Prop :=
  ∃ c ∈ s.getLast?, isSingleOperator c = true

/-- Whether a text ends with a token that an equals sign would be part of, or take a character of. -/
def Pending (s : List Char) : Prop :=
  (∃ token ∈ (tokens s).getLast?, Extensible token) ∧ ∃ c ∈ s.getLast?, isBlank c = false

/-- Whether the equals sign that `rest` starts with would belong to an operator that starts in
`front`. -/
def Fuses (front rest : List Char) : Prop :=
  Pending front ∧ rest.head? = some '='

variable {front : List Char}

/-- The last character of a text in which no quote stays open is a quote or outside quotes. -/
theorem mem_unquoted_of_getLast? (hclosed : Quoting.after none s = none)
    (hlast : s.getLast? = some c) (hc : isQuote c = false) : c ∈ unquoted s := by
  obtain ⟨init, rfl⟩ := List.getLast?_eq_some_iff.1 hlast
  rw [Quoting.after_append] at hclosed
  have hinit : Quoting.after none init = none :=
    Text.eq_none_of_next_eq_none (Text.isQuote_of_mem_after (by simp) init) hc hclosed
  rw [Text.unquoted_append hinit, Text.unquoted_cons hc]
  simp

theorem mem_operators_of_endsWithOperator (htoken : IsToken token)
    (hclosed : Quoting.after none token = none) (h : EndsWithOperator token) :
    token ∈ operators := by
  refine htoken.resolve_right fun hoperand => ?_
  obtain ⟨c, hlast, hc⟩ := h
  have hmem := mem_unquoted_of_getLast? hclosed hlast (isQuote_of_isSingleOperator hc).1
  simp [hoperand.2 c hmem] at hc

theorem Extensible.isBlank_eq_false (h : Extensible token) :
    ∃ c ∈ token.getLast?, isBlank c = false := by
  rcases h with ⟨c, rfl, hc⟩ | hlast
  · exact ⟨c, rfl, (isQuote_of_isSingleOperator hc).2⟩
  · exact ⟨'!', hlast, by decide⟩

/-- An equals sign becomes part of an operator that could go on. -/
theorem tokens_append_ne (htoken : IsToken token) (hclosed : Quoting.after none token = none)
    (h : Extensible token) (s : List Char) : (tokens (token ++ '=' :: s)).head? ≠ some token := by
  rcases h with ⟨c, rfl, hc⟩ | hlast
  · rw [List.singleton_append, tokens_doubled (isDoubledOperator_of_isSingleOperator hc)]
    simp
  · obtain ⟨word, rfl⟩ := List.getLast?_eq_some_iff.1 hlast
    rw [List.append_assoc, List.singleton_append]
    by_cases hne : word = []
    · rw [hne, List.nil_append, tokens_doubled rfl]
      simp
    · have hclosed' : Quoting.after none word = none := by
        rw [Quoting.after_append] at hclosed
        exact Text.eq_none_of_next_eq_none (Text.isQuote_of_mem_after (by simp) word) rfl hclosed
      have hword : IsToken word := by
        have hoperand : IsOperand (word ++ ['!']) := by
          refine htoken.resolve_left fun hoperator => ?_
          have hends : ∀ operator ∈ operators, operator.getLast? ≠ some '!' := by decide
          exact hends _ hoperator hlast
        refine .inr ⟨hne, fun c hc => hoperand.2 c ?_⟩
        rw [Text.unquoted_append hclosed']
        exact List.mem_append_left _ hc
      have hends : Ends word ('!' :: '=' :: s) :=
        .inr ⟨hclosed', .inr (.inr (.inr (List.prefix_append ['!', '='] s))), by simp⟩
      rw [tokens_append hword hends]
      simp

theorem tokens_append_token_iff (htoken : IsToken token)
    (hclosed : Quoting.after none token = none) (hseam : token ∈ operators ∨
      StartsWithSeparator isBlank rest ∨ StartsWithOperator rest) :
    tokens (token ++ rest) = token :: tokens rest ↔
      ¬ (Extensible token ∧ rest.head? = some '=') := by
  constructor
  · rintro heq ⟨hextensible, hhead⟩
    obtain ⟨s, rfl⟩ := List.head?_eq_some_iff.1 hhead
    exact tokens_append_ne htoken hclosed hextensible s (by rw [heq]; rfl)
  · intro h
    exact tokens_append htoken (.inr ⟨hclosed, hseam, fun hextensible hhead => h ⟨hextensible, hhead⟩⟩)

/-! ## Where an equals sign fuses -/

theorem not_pending_nil : ¬ Pending [] := by
  simp [Pending]

theorem pending_cons (hc : isBlank c = true) (s : List Char) : Pending (c :: s) ↔ Pending s := by
  rw [Pending, Pending, tokens_cons hc]
  cases s with
  | nil => simp
  | cons d s => rw [List.getLast?_cons_cons]

theorem pending_token (htoken : IsToken token) : Pending token ↔ Extensible token := by
  rw [Pending, htoken.tokens_eq]
  simpa using Extensible.isBlank_eq_false

/-- Without tokens there is white space only. -/
theorem Tokenized.isBlank_of_nil (h : Tokenized s tokens') (hnil : tokens' = []) :
    ∀ c ∈ s, isBlank c = true := by
  induction h with
  | nil => simp
  | blank hc _ ih => exact List.forall_mem_cons.2 ⟨hc, ih hnil⟩
  | token => contradiction

theorem pending_append (htoken : IsToken token) (hends : Ends token rest) (hne : rest ≠ []) :
    Pending (token ++ rest) ↔ Pending rest := by
  rw [Pending, Pending, tokens_append htoken hends, List.getLast?_append_of_ne_nil token hne]
  cases htokens : tokens rest with
  | nil =>
    have hblank := (tokenized_tokens rest).isBlank_of_nil htokens _ (List.getLast_mem hne)
    simp [List.getLast?_eq_some_getLast hne, hblank]
  | cons next later => rw [List.getLast?_cons_cons]

theorem Ends.append (h : Ends token s) (hne : s ≠ []) (rest : List Char) :
    Ends token (s ++ rest) := by
  obtain ⟨hclosed, hstarts, hextensible⟩ := h.resolve_left hne
  have hhead : (s ++ rest).head? = s.head? := List.head?_append_of_ne_nil s hne
  refine .inr ⟨hclosed, hstarts.imp_right (Or.imp ?_ (Or.imp ?_ ?_)), by rwa [hhead]⟩
  · rw [StartsWithSeparator, StartsWithSeparator, hhead]
    exact id
  · rw [hhead]
    exact id
  · exact fun h => h.trans (List.prefix_append s rest)

/-- Where white space or an operator stands at a seam, the tokens of two texts stay the same, an
equals sign apart that fuses. -/
theorem Tokenized.tokens_append_iff (h : Tokenized front tokens')
    (hclosed : Quoting.after none front = none) (hseam : EndsWithOperator front ∨
      StartsWithSeparator isBlank rest ∨ StartsWithOperator rest) :
    tokens (front ++ rest) = tokens' ++ tokens rest ↔ ¬ Fuses front rest := by
  induction h with
  | nil => simp [Fuses, not_pending_nil]
  | @blank c s tokens' hc h ih =>
    have hquote := Text.isQuote_of_isBlank hc
    have hclosed' : Quoting.after none s = none := by
      rwa [Quoting.after_cons, (Quoting.next_of_bares (Text.bares_none hquote)).2] at hclosed
    have hends (hfront : EndsWithOperator (c :: s)) : EndsWithOperator s := by
      obtain ⟨d, hlast, hd⟩ := hfront
      cases s with
      | nil =>
        obtain rfl : c = d := by simpa using hlast
        simp [(isQuote_of_isSingleOperator hd).2] at hc
      | cons e s => exact ⟨d, by rwa [List.getLast?_cons_cons] at hlast, hd⟩
    rw [List.cons_append, tokens_cons hc, Fuses, pending_cons hc]
    exact ih hclosed' (hseam.imp_left hends)
  | @token token s tokens' htoken hends h ih =>
    by_cases hne : s = []
    · subst hne
      obtain rfl : [] = tokens' := tokens_of_tokenized h
      rw [List.append_nil] at hclosed hseam
      rw [List.append_nil, Fuses, pending_token htoken]
      exact tokens_append_token_iff htoken hclosed
        (hseam.imp_left (mem_operators_of_endsWithOperator htoken hclosed))
    · have hclosed' : Quoting.after none s = none := by
        rwa [Quoting.after_append, (hends.resolve_left hne).1] at hclosed
      rw [EndsWithOperator, List.getLast?_append_of_ne_nil token hne] at hseam
      rw [List.append_assoc, tokens_append htoken (hends.append hne rest), List.cons_append,
        List.cons_inj_right, Fuses, pending_append htoken hends hne]
      exact ih hclosed' hseam

theorem tokens_append_gap {gap : List Char} (hclosed : Quoting.after none front = none)
    (hne : gap ≠ []) (hgap : ∀ c ∈ gap, isBlank c = true) (rest : List Char) :
    tokens (front ++ (gap ++ rest)) = tokens front ++ tokens rest := by
  have hdrop : tokens (gap ++ rest) = tokens rest := by
    clear hne
    induction gap with
    | nil => rfl
    | cons c gap ih =>
      obtain ⟨hc, hgap⟩ := List.forall_mem_cons.1 hgap
      rw [List.cons_append, tokens_cons hc, ih hgap]
  obtain ⟨c, gap, rfl⟩ := List.exists_cons_of_ne_nil hne
  have hc : isBlank c = true := hgap c List.mem_cons_self
  have hseam : StartsWithSeparator isBlank (c :: gap ++ rest) :=
    ⟨c, rfl, Text.isQuote_of_isBlank hc, hc⟩
  have hfuses : ¬ Fuses front (c :: gap ++ rest) := by
    rintro ⟨-, hhead⟩
    obtain rfl : c = '=' := by simpa using hhead
    exact absurd hc (by decide)
  rw [← hdrop]
  exact ((tokenized_tokens front).tokens_append_iff hclosed (.inr (.inl hseam))).2 hfuses

/-- Tokens have a normal form. They are not empty, each is an operator or without operators outside
quotes, together they are the text without its white space outside quotes, and with a space between
any two of them they are the tokens of what they make up. White space between an operator and what
stands next to it says nothing, except where it keeps an equals sign from fusing. -/
theorem tokens_normal_form (s : List Char) :
    (∀ token ∈ tokens s, token ≠ [] ∧ (token ∈ operators ∨
        ∀ c ∈ unquoted token, c ≠ '<' ∧ c ≠ '>' ∧ c ≠ '=')) ∧
      (tokens s).flatten = Text.dropUnquoted isBlank none s ∧
      tokens ([' '].intercalate (tokens s)) = tokens s ∧
      (∀ context, evaluate ([' '].intercalate (tokens s)) context = evaluate s context) ∧
      ∀ front gap rest, s = front ++ (gap ++ rest) → gap ≠ [] → (∀ c ∈ gap, isBlank c = true) →
        Quoting.after none front = none → EndsWithOperator front ∨ StartsWithOperator rest →
        (tokens (front ++ rest) = tokens s ↔ ¬ Fuses front rest) ∧
          (¬ Fuses front rest → ∀ context, evaluate (front ++ rest) context = evaluate s context) := by
  have htokenized := tokenized_tokens s
  have hjoined := htokenized.tokens_intercalate
  refine ⟨fun token hmem => ?_, htokenized.flatten_eq, hjoined, evaluate_congr hjoined, ?_⟩
  · have htoken := htokenized.isToken token hmem
    refine ⟨htoken.ne_nil, htoken.imp_right fun hoperand c hc => ?_⟩
    simpa [isSingleOperator, and_comm, and_assoc] using (hoperand.2 c hc).2
  · rintro front gap rest rfl hne hgap hclosed hseam
    have hiff := (tokenized_tokens front).tokens_append_iff hclosed (hseam.imp_right .inr)
    rw [tokens_append_gap hclosed hne hgap]
    refine ⟨hiff, fun h => evaluate_congr ?_⟩
    rw [tokens_append_gap hclosed hne hgap, hiff.2 h]

/-- Without the space, the exclamation mark and the first equals sign are an operator. -/
theorem evaluate_fused :
    evaluate "a! == b".toList (.object []) = .ok true ∧
      evaluate "a!==b".toList (.object []) =
        .error (.malformedClause [['a'], ['!', '='], ['='], ['b']]) := by
  decide

end Condition

end Stencil
