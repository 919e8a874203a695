import Stencil.Proofs.Clauses
import Stencil.Proofs.Composition
import Stencil.Proofs.Grammar
import Stencil.Proofs.Strictness
import Stencil.Proofs.Tokens

/-!
# Quoted text

A text between quotes reaches assignments, conditions and functions as it is written. The readings
that a tag goes through, of which each looks for quotes on its own, agree that nothing in the text
means anything but the closing quote, and that of the tag only a closing delimiter does.

## Main definitions

* `Text.quote`: a text in quotes.
-/

namespace Stencil

/-! ## Quotes -/

namespace Text

/-- A text in quotes. -/
def quote (q : Char) (s : String) : String :=
  String.singleton q ++ s ++ String.singleton q

theorem toList_quote (q : Char) (s : String) : (quote q s).toList = q :: (s.toList ++ [q]) := by
  simp [quote]

theorem append_quote_ne_empty (front : String) (q : Char) (s : String) :
    front ++ quote q s ≠ "" := by
  intro hempty
  have hlist := congrArg String.toList hempty
  rw [String.toList_append, toList_quote] at hlist
  simp at hlist

variable {q : Char} {s rest : List Char} {separates : Char → Bool}

/-- What is true of both quotes is true of every quote. -/
theorem forall_of_isQuote {P : Char → Prop} (hsingle : P '\'') (hdouble : P '"')
    (hq : isQuote q = true) : P q := by
  rcases Bool.or_eq_true_iff.1 hq with h | h
  · rwa [beq_iff_eq.1 h]
  · rwa [beq_iff_eq.1 h]

theorem unquoteBy?_quote (hs : q ∉ s) : unquoteBy? q (q :: (s ++ [q])) = some s := by
  simp [unquoteBy?, hs]

theorem unquote?_quote (hq : isQuote q = true) (hs : q ∉ s) :
    unquote? (q :: (s ++ [q])) = some s := by
  have hother (h : q ≠ '\'') : unquoteBy? '\'' (q :: (s ++ [q])) = none := by simp [unquoteBy?, h]
  rcases Bool.or_eq_true_iff.1 hq with h | h <;> obtain rfl := beq_iff_eq.1 h
  · rw [unquote?, unquoteBy?_quote hs]
    rfl
  · rw [unquote?, hother (by decide), unquoteBy?_quote hs]
    rfl

/-- Nothing is outside quotes before the closing one. -/
theorem unquotedFrom_of_open (hs : q ∉ s) : unquotedFrom (some q) (s ++ [q]) = [] := by
  induction s with
  | nil => simp [unquotedFrom, Quoting.bares]
  | cons c s ih =>
    obtain ⟨hc, hs⟩ := not_or.1 (mt List.mem_cons.2 hs)
    simpa [unquotedFrom, Quoting.bares, Quoting.next, Ne.symm hc] using ih hs

/-- Of a text that ends with its only quoted text, what stands in front of it is outside quotes. -/
theorem unquoted_append_quote (hq : isQuote q = true) (hs : q ∉ s) (front : List Char)
    (hfront : ∀ c ∈ front, isQuote c = false) : unquoted (front ++ q :: (s ++ [q])) = front := by
  have hquote : unquoted (q :: (s ++ [q])) = [] := by
    simpa [unquoted, unquotedFrom, Quoting.bares, Quoting.next, hq] using unquotedFrom_of_open hs
  rw [unquoted_append (after_eq_none hfront), unquoted_eq_self hfront, hquote, List.append_nil]

/-- A text that ends with its only quoted text is one piece. -/
theorem splitUnquoted_append_quote (hq : isQuote q = true) (hs : q ∉ s) (front : List Char)
    (h : ∀ c ∈ front, isQuote c = false ∧ separates c = false) :
    splitUnquoted separates (front ++ q :: (s ++ [q])) = [front ++ q :: (s ++ [q])] := by
  have hunquoted : ∀ c ∈ unquoted (front ++ q :: (s ++ [q])), separates c = false := by
    rw [unquoted_append_quote hq hs front fun c hc => (h c hc).1]
    exact fun c hc => (h c hc).2
  have hpiece := splitUnquoted_piece (by simp) hunquoted (.inl rfl)
  rwa [List.append_nil] at hpiece

end Text

/-- Quoted text is a token. -/
theorem Condition.isToken_quote {q : Char} {s : List Char} (hq : Text.isQuote q = true)
    (hs : q ∉ s) : IsToken (q :: (s ++ [q])) := by
  have hunquoted : Text.unquoted (q :: (s ++ [q])) = [] :=
    Text.unquoted_append_quote hq hs [] (List.forall_mem_nil _)
  exact .inr ⟨List.cons_ne_nil _ _, by simp [hunquoted]⟩

/-- Only a string is equal to a string. -/
theorem Value.equals_string_iff {v : Value} {s : String} :
    v.equals (.string s) = true ↔ v = .string s := by
  cases v <;> simp [equals, same]

/-! ## Arguments -/

section Arguments

variable {q : Char} {s : String} (hq : Text.isQuote q = true) (hs : q ∉ s.toList)

include hq

/-- Quoted text is trimmed, whatever white space it starts or ends with. -/
theorem Text.trim_append_quote (front s : List Char)
    (hfront : front.head?.any isBlank = false) :
    trim (front ++ q :: (s ++ [q])) = front ++ q :: (s ++ [q]) := by
  have hblank := isBlank_of_isQuote hq
  have hlast : (front ++ q :: (s ++ [q])).getLast? = some q := by
    rw [← List.cons_append, ← List.append_assoc, List.getLast?_concat]
  refine trim_eq_self_of_ends (fun c hc => ?_) fun c hc => ?_
  · cases front with
    | nil => exact Option.some.inj hc ▸ hblank
    | cons d front => exact Option.some.inj hc ▸ hfront
  · exact Option.some.inj (hlast.symm.trans hc) ▸ hblank

theorem Text.trim_quote (s : String) : trim (quote q s).toList = (quote q s).toList := by
  rw [toList_quote]
  exact trim_append_quote hq [] s.toList rfl

include hs

/-- Quoted text denotes itself. -/
theorem Operand.read_quote : read (Text.quote q s).toList = literal (.string s) := by
  have hunquote : Text.unquote? (Text.quote q s).toList = some s.toList := by
    rw [Text.toList_quote, Text.unquote?_quote hq hs]
  simp only [read, Text.trim_quote hq, hunquote, String.ofList_toList]

theorem Operand.lookup?_quote (context : Value) :
    lookup? (Text.quote q s).toList context = some (.string s) := by
  rw [lookup?, read_quote hq hs]
  rfl

/-- A text of quotes is one argument. -/
theorem Helper.resolveArguments_quote (context : Value) :
    resolveArguments (some (Text.quote q s)) context = [.string s] := by
  have hpieces : Text.splitUnquoted separatesArguments (Text.quote q s).toList =
      [(Text.quote q s).toList] := by
    rw [Text.toList_quote]
    exact Text.splitUnquoted_append_quote hq hs [] (by simp)
  rw [resolveArguments, Option.getD_some, hpieces, List.map_singleton,
    Operand.lookup?_quote hq hs, Option.getD_some]

/-- The equals sign that divides an assignment stands in front of the quotes. -/
theorem Assignment.read_quote (context : Value) :
    read ("x = " ++ Text.quote q s).toList context = .ok [("x", .string s)] := by
  have hlist : ("x = " ++ Text.quote q s).toList =
      ['x', ' ', '=', ' '] ++ (Text.quote q s).toList := String.toList_append
  have hpieces : Text.splitUnquoted (· == ',') (['x', ' ', '=', ' '] ++ (Text.quote q s).toList) =
      [['x', ' ', '=', ' '] ++ (Text.quote q s).toList] := by
    rw [Text.toList_quote]
    exact Text.splitUnquoted_append_quote hq hs _ (by decide)
  have hcut : cutAtEquals? (['x', ' ', '=', ' '] ++ (Text.quote q s).toList) =
      some (['x', ' '], ' ' :: (Text.quote q s).toList) := by
    simp [cutAtEquals?]
  have htrim : Text.trim (' ' :: (Text.quote q s).toList) = (Text.quote q s).toList :=
    Text.trim_quote hq s
  have hname : Text.trim ['x', ' '] = ['x'] ∧ Path.isName ['x'] = true := by decide
  have hone : readOne context (['x', ' ', '=', ' '] ++ (Text.quote q s).toList) =
      .ok ("x", .string s) := by
    simp only [readOne, hcut, htrim, hname, valueOf, Operand.lookup?_quote hq hs, if_pos]
    rfl
  rw [read, hlist, hpieces, List.mapM_cons, hone]
  rfl

/-- A comparison with quoted text has three tokens, the last of which are the quotes. -/
theorem Condition.tokens_quote :
    tokens ("x == " ++ Text.quote q s).toList =
      [['x'], ['=', '='], (Text.quote q s).toList] := by
  have hlist : ("x == " ++ Text.quote q s).toList =
      ['x'] ++ ' ' :: (['=', '='] ++ ' ' :: (Text.quote q s).toList) := by
    simp
  have hx : IsToken ['x'] := .inr ⟨by decide, by decide⟩
  have hequals : IsToken ['=', '='] := .inl (by decide)
  have hquote : IsToken (Text.quote q s).toList := by
    rw [Text.toList_quote]
    exact isToken_quote hq hs
  rw [hlist, tokens_append_blank hx rfl (by decide), tokens_append_blank hequals rfl (by decide),
    hquote.tokens_eq]

/-- A comparison with quoted text is read as one, whatever words stand between the quotes. -/
theorem Condition.read_quote :
    read ("x == " ++ Text.quote q s).toList =
      .ok ⟨⟨0, .comparison (.path ['x']) .equal (.literal (.string s))⟩, []⟩ := by
  have hx : Operand.read ['x'] = .path ['x'] := rfl
  have hclause : Clause.ofTokens [['x'], ['=', '='], (Text.quote q s).toList] =
      .ok ⟨0, .comparison (.path ['x']) .equal (.literal (.string s))⟩ := by
    rw [← hx, ← Operand.read_quote hq hs]
    rfl
  have hconnective : Connective.ofToken? (Text.quote q s).toList = none := by
    rw [Text.toList_quote]
    exact Text.forall_of_isQuote
      (P := fun q => Connective.ofToken? (q :: (s.toList ++ [q])) = none) rfl rfl hq
  have hfree : FreeOfConnectives [['x'], ['=', '='], (Text.quote q s).toList] := by
    rw [freeOfConnectives_iff]
    simp only [List.forall_mem_cons, hconnective]
    decide
  rw [read, tokens_quote hq hs, ofTokens_of_free hfree, hclause]
  rfl

/-- A path is equal to quoted text if it addresses that text. -/
theorem Condition.evaluate_quote (context : Value) :
    ∃ holds, evaluate ("x == " ++ Text.quote q s).toList context = .ok holds ∧
      (holds = true ↔ context.resolve? ['x'] = some (.string s)) := by
  refine ⟨_, by rw [evaluate, read_quote hq hs]; rfl, ?_⟩
  have hholds : (Test.valueOf (.path ['x']) context).equals (.string s) = true ↔
      context.resolve? ['x'] = some (.string s) := by
    rw [Value.equals_string_iff, Test.valueOf, Operand.value?]
    cases context.resolve? ['x'] <;> simp
  have hliteral : Test.valueOf (.literal (.string s)) context = .string s := rfl
  simpa [holds, Clause.holds, Test.holds, Comparison.holds, hliteral] using hholds

end Arguments

/-! ## Tags -/

/-- Quoted text ends a tag only if a closing delimiter stands in it. -/
theorem TagKind.fits_append_quote {kind : TagKind} {q : Char} {front s : String}
    (hkind : kind ≠ .interpolation ∧ kind ≠ .comment) (hq : Text.isQuote q = true)
    (hfront : '}' ∉ front.toList) (hbraces : ¬ ['}', '}'] <:+: s.toList) :
    kind.Fits (front ++ Text.quote q s) where
  not_infix h := by
    have hbrace : q ∉ ['}', '}'] :=
      Text.forall_of_isQuote (P := (· ∉ ['}', '}'])) (by decide) (by decide) hq
    rw [String.toList_append, Text.toList_quote] at h
    rcases Delimiter.isInfix_or_of_isInfix_append_cons hbrace h with h | h
    · exact hfront (h.subset List.mem_cons_self)
    · rcases Delimiter.isInfix_or_of_isInfix_append_cons hbrace h with h | h
      · exact hbraces h
      · exact absurd (List.eq_nil_of_infix_nil h) (by decide)
  getLast?_ne c hc := by
    have hlast : (front ++ Text.quote q s).toList.getLast? = some q := by
      rw [Text.quote, ← String.append_assoc, String.toList_append, String.toList_singleton,
        List.getLast?_concat]
    obtain rfl := Option.some.inj (hlast.symm.trans hc)
    exact Text.forall_of_isQuote (P := fun c => c ≠ '}' ∧ c ≠ '\\') (by decide) (by decide) hq
  head?_ne h := absurd h hkind.1
  not_prefix h := absurd h hkind.2

/-! ## Templates -/

namespace Template

variable {q : Char} {s key : String}

/-- Arguments that end with quoted text are read from a tag as they are. -/
theorem arguments?_append_quote (hq : Text.isQuote q = true) {front : String}
    (hfront : front.toList.head?.any Text.isBlank = false) :
    Key.arguments? (Item.behind (some (front ++ Text.quote q s))) =
      some (front ++ Text.quote q s) := by
  refine Item.arguments?_behind ?_
  rintro _ ⟨⟩
  refine ⟨Text.append_quote_ne_empty front q s, ?_⟩
  rw [String.toList_append, Text.toList_quote]
  exact Text.trim_append_quote hq front.toList s.toList hfront

/-- A template that starts with a tag of a helper whose arguments end with quoted text. -/
theorem exists_parse_helper (hq : Text.isQuote q = true) (hbraces : ¬ ['}', '}'] <:+: s.toList)
    (hkey : Key.isKey Key.isBlockChar key.toList = true) {front template : String}
    (hfront : '}' ∉ front.toList) (hblank : front.toList.head?.any Text.isBlank = false)
    {rest : List Token} (hrest : ∀ token ∈ rest, token.ReadBack .standard)
    (hchain : rest.IsChain fun a b => ¬ (a.isText ∧ b.isText))
    (htemplate : template.toList = ("\x7b\x7b#" ++ key ++ " " ++ front ++ Text.quote q s ++
      "\x7d\x7d").toList ++ rest.flatMap Token.source) :
    ∃ source span position, parse .standard template =
      (nodesOf position [key] rest).map
        (.helper key source span 0 (some (front ++ Text.quote q s)) :: ·) := by
  have hcontent : Item.content key (some (front ++ Text.quote q s)) =
      key ++ " " ++ front ++ Text.quote q s := by
    simp only [Item.content, String.append_assoc]
  have hfits : TagKind.helper.Fits (Item.content key (some (front ++ Text.quote q s))) := by
    have hkey : '}' ∉ key.toList := fun h => (Item.forall_mem_blockKey hkey '}' h).1 rfl
    rw [hcontent]
    exact TagKind.fits_append_quote (by decide) hq (by simp [hkey, hfront]) hbraces
  have htokens : template.toList =
      (Token.tag (TagKind.helper.around .standard
        (Item.content key (some (front ++ Text.quote q s)))) :: rest).flatMap Token.source := by
    rw [htemplate, hcontent]
    simp [Token.source, TagKind.around, TagKind.write, Dialect.wrap, TagKind.brackets,
      Dialect.standard]
  have hsplit := Item.splitBlock_content hkey (some (front ++ Text.quote q s))
  have harguments := arguments?_append_quote (s := s) hq hblank
  have hparse := parse_of_readBack (by decide) htokens
    (List.forall_mem_cons.2 ⟨hfits.readBack, hrest⟩)
    (List.isChain_cons.2 ⟨fun _ _ h => Bool.noConfusion h.1, hchain⟩)
  simp only [nodesOf, nodeOf, TagKind.around, hsplit, harguments, String.ofList_toList] at hparse
  exact ⟨_, _, _, hparse⟩

theorem readBack_raw :
    (Token.tag (TagKind.raw.around .standard "x")).ReadBack .standard :=
  (TagKind.fits_of_forall (by decide) nofun nofun : TagKind.raw.Fits "x").readBack

/-- A partial that is just a variable. -/
theorem exists_parse_raw :
    ∃ source span, parse .standard "\x7b\x7b\x7bx\x7d\x7d\x7d" = .ok [.raw "x" source span] := by
  have htemplate : "\x7b\x7b\x7bx\x7d\x7d\x7d".toList =
      [Token.tag (TagKind.raw.around .standard "x")].flatMap Token.source := by decide
  rw [parse_of_readBack (by decide) htemplate (List.forall_mem_singleton.2 readBack_raw)
    (List.isChain_singleton _)]
  exact ⟨_, _, rfl⟩

/-- An assignment in front of the variable that it binds. -/
theorem exists_parse_set (hq : Text.isQuote q = true) (hbraces : ¬ ['}', '}'] <:+: s.toList) :
    ∃ source span source' span', parse .standard
        ("\x7b\x7b#set x = " ++ Text.quote q s ++ "\x7d\x7d\x7b\x7b\x7bx\x7d\x7d\x7d") =
      .ok [.helper "set" source span 0 (some ("x = " ++ Text.quote q s)),
        .raw "x" source' span'] := by
  have hkey : Key.isKey Key.isBlockChar "set".toList = true := by decide
  have htemplate :
      ("\x7b\x7b#set x = " ++ Text.quote q s ++ "\x7d\x7d\x7b\x7b\x7bx\x7d\x7d\x7d").toList =
        ("\x7b\x7b#" ++ "set" ++ " " ++ "x = " ++ Text.quote q s ++ "\x7d\x7d").toList ++
          [Token.tag (TagKind.raw.around .standard "x")].flatMap Token.source := by
    simp [Token.source, TagKind.around, TagKind.write, Dialect.wrap, TagKind.brackets,
      Dialect.standard]
  obtain ⟨source, span, position, hparse⟩ := exists_parse_helper hq hbraces hkey (by decide)
    (by decide) (List.forall_mem_singleton.2 readBack_raw) (List.isChain_singleton _) htemplate
  rw [hparse]
  exact ⟨source, span, _, _, rfl⟩

/-- A block with two branches of text. -/
theorem exists_parse_if (hq : Text.isQuote q = true) (hbraces : ¬ ['}', '}'] <:+: s.toList) :
    ∃ source span source' span' source'' span'', parse .standard
        ("\x7b\x7b#if x == " ++ Text.quote q s ++
          "\x7d\x7dyes\x7b\x7belse\x7d\x7dno\x7b\x7b/if\x7d\x7d") =
      .ok [.helper "if" source span 0 (some ("x == " ++ Text.quote q s)), .text "yes",
        .interpolation "else" source' span' none, .text "no", .close "if" source'' span'' 0] := by
  have hkey : Key.isKey Key.isBlockChar "if".toList = true := by decide
  let rest : List Token := [.text "yes".toList,
    .tag (TagKind.interpolation.around .standard "else"), .text "no".toList,
    .tag (TagKind.close.around .standard "if")]
  have hrest : ∀ token ∈ rest, token.ReadBack .standard := by
    have helse : TagKind.interpolation.Fits "else" :=
      TagKind.fits_of_forall (by decide) (fun _ => by simp) nofun
    have hclose : TagKind.close.Fits "if" := TagKind.fits_of_forall (by decide) nofun nofun
    have hyes : Token.Plain .standard "yes".toList := ⟨by decide, by decide⟩
    have hno : Token.Plain .standard "no".toList := ⟨by decide, by decide⟩
    simpa [rest, Token.ReadBack] using ⟨hyes, helse.readBack, hno, hclose.readBack⟩
  have hchain : rest.IsChain fun a b => ¬ (a.isText ∧ b.isText) := by
    simp [rest, Token.isText]
  have htemplate : ("\x7b\x7b#if x == " ++ Text.quote q s ++
      "\x7d\x7dyes\x7b\x7belse\x7d\x7dno\x7b\x7b/if\x7d\x7d").toList =
        ("\x7b\x7b#" ++ "if" ++ " " ++ "x == " ++ Text.quote q s ++ "\x7d\x7d").toList ++
          rest.flatMap Token.source := by
    simp [rest, Token.source, TagKind.around, TagKind.write, Dialect.wrap, TagKind.brackets,
      Dialect.standard]
  obtain ⟨source, span, position, hparse⟩ := exists_parse_helper hq hbraces hkey (by decide)
    (by decide) hrest hchain htemplate
  rw [hparse]
  exact ⟨source, span, _, _, _, _, rfl⟩

/-- An inclusion with an assignment, with white space in front of its key. -/
theorem exists_parse_inclusion (hq : Text.isQuote q = true) (hbraces : ¬ ['}', '}'] <:+: s.toList) :
    ∃ source span, parse .standard ("\x7b\x7b> p x = " ++ Text.quote q s ++ "\x7d\x7d") =
      .ok [.inclusion "p" source span 0 (some ("x = " ++ Text.quote q s))] := by
  have hfits : TagKind.inclusion.Fits (" p x = " ++ Text.quote q s) :=
    TagKind.fits_append_quote (by decide) hq (by decide) hbraces
  have htemplate : ("\x7b\x7b> p x = " ++ Text.quote q s ++ "\x7d\x7d").toList =
      [Token.tag (TagKind.inclusion.around .standard (" p x = " ++ Text.quote q s))].flatMap
        Token.source := by
    simp [Token.source, TagKind.around, TagKind.write, Dialect.wrap, TagKind.brackets,
      Dialect.standard]
  have hkey : Key.isKey Key.isBlockChar "p".toList = true := by decide
  have hcontent : (" p x = " ++ Text.quote q s).toList =
      ' ' :: (Item.content "p" (some ("x = " ++ Text.quote q s))).toList := by
    simp [Item.content]
  have hsplit : Key.splitBlock (" p x = " ++ Text.quote q s).toList =
      ("p".toList, Item.behind (some ("x = " ++ Text.quote q s))) := by
    rw [hcontent]
    exact Item.splitBlock_content hkey (some ("x = " ++ Text.quote q s))
  have harguments : Key.arguments? (Item.behind (some ("x = " ++ Text.quote q s))) =
      some ("x = " ++ Text.quote q s) := arguments?_append_quote hq (by decide)
  rw [parse_of_readBack (by decide) htemplate (List.forall_mem_singleton.2 hfits.readBack)
    (List.isChain_singleton _)]
  simp only [nodesOf, nodeOf, TagKind.around, hsplit, harguments, String.ofList_toList]
  exact ⟨_, _, rfl⟩

/-- A bare tag of a helper. -/
theorem exists_parse_function (hq : Text.isQuote q = true) (hbraces : ¬ ['}', '}'] <:+: s.toList) :
    ∃ source span, parse .standard ("\x7b\x7b#f " ++ Text.quote q s ++ "\x7d\x7d") =
      .ok [.helper "f" source span 0 (some (Text.quote q s))] := by
  have hkey : Key.isKey Key.isBlockChar "f".toList = true := by decide
  have htemplate : ("\x7b\x7b#f " ++ Text.quote q s ++ "\x7d\x7d").toList =
      ("\x7b\x7b#" ++ "f" ++ " " ++ "" ++ Text.quote q s ++ "\x7d\x7d").toList ++
        ([] : List Token).flatMap Token.source := by
    simp
  obtain ⟨source, span, position, hparse⟩ := exists_parse_helper hq hbraces hkey (by decide)
    (by decide) (List.forall_mem_nil _) List.isChain_nil htemplate
  rw [hparse, String.empty_append]
  exact ⟨source, span, rfl⟩

end Template

/-! ## Renderings -/

/-- A variable has the value that is bound to it. -/
theorem Value.resolve?_bindAll (context v : Value) :
    (context.bindAll [("x", v)]).resolve? ['x'] = some v := by
  have hsegments : Path.segments ['x'] = ["x"] := by decide
  rw [resolve?, hsegments]
  simp [walk, bindAll, child?, Table.extend, Table.get?_insert]

namespace Environment

variable {σ : Type} {env : Environment σ} {store : σ}

theorem execute_text (limit : Nat) (context : Value) (text : String) :
    env.execute (limit + 1) [.text text] context store = some ⟨.ok text, context, store, []⟩ := by
  rw [execute_of_segments_eq rfl]
  rfl

/-- A raw interpolation renders the string that is bound to its variable. -/
theorem execute_raw (limit : Nat) (context : Value) (s source : String) (span : Span) :
    env.execute (limit + 1) [.raw "x" source span] (context.bindAll [("x", .string s)]) store =
      some ⟨.ok s, context.bindAll [("x", .string s)], store, []⟩ := by
  have hlookup : Operand.lookup? "x".toList (context.bindAll [("x", .string s)]) =
      some (.string s) := Value.resolve?_bindAll context (.string s)
  rw [execute_of_segments_eq rfl]
  simp only [runSegment, interpolate, hlookup]
  rfl

end Environment

namespace Engine

variable {σ : Type} [PartialStore σ] {engine : Engine σ} {strict : Bool} {q : Char} {s : String}

/-- A template that is read in the standard dialect is read so in a strict one, too. -/
theorem render_of_parse (hdialect : engine.dialect = Dialect.standard.withStrictness strict)
    {template : String} {nodes : List Node} (hparse : Template.parse .standard template = .ok nodes)
    (limit : Nat) (context : Value) :
    (engine.render limit template context).map Outcome.result =
      (engine.execute limit nodes context).map Outcome.result := by
  rw [render, parse, hdialect, Template.parse_withStrictness, hparse]
  exact Option.map_map _ _ _

/-- Quoted text that is assigned to a variable is rendered in its place. -/
theorem render_set_quote (hdialect : engine.dialect = Dialect.standard.withStrictness strict)
    (hset : Table.get? engine.helpers "set" = some (Helper.assignment Value.bindAll))
    (hq : Text.isQuote q = true) (hs : q ∉ s.toList) (hbraces : ¬ ['}', '}'] <:+: s.toList)
    (limit : Nat) (context : Value) :
    (engine.render (limit + 1)
        ("\x7b\x7b#set x = " ++ Text.quote q s ++ "\x7d\x7d\x7b\x7b\x7bx\x7d\x7d\x7d")
        context).map Outcome.result = some (.ok s) := by
  obtain ⟨source, span, source', span', hparse⟩ := Template.exists_parse_set hq hbraces
  have happart : Node.Apart [.helper "set" source span 0 (some ("x = " ++ Text.quote q s))]
      [.raw "x" source' span'] := Node.apart_of_right (List.forall_mem_singleton.2 rfl)
  have hassigned : engine.environment.execute (limit + 1)
      [.helper "set" source span 0 (some ("x = " ++ Text.quote q s))] context engine.partials =
        some ⟨.ok "", context.bindAll [("x", .string s)], engine.partials, []⟩ := by
    rw [Environment.execute_helper rfl hset]
    simp only [Helper.assignment, Node.arguments?, Assignment.read_quote hq hs]
    rfl
  have happend := Environment.execute_append happart engine.environment (limit + 1) context
    engine.partials
  rw [hassigned, Option.bind_some, Outcome.andThen, Environment.execute_raw] at happend
  rw [render_of_parse hdialect hparse]
  simpa [execute, Outcome.following, Outcome.report, Except.map] using
    congrArg (Option.map Outcome.result) happend

/-- Quoted text that is assigned for a partial is rendered there. -/
theorem render_inclusion_quote [LawfulPartialStore σ]
    (hdialect : engine.dialect = Dialect.standard.withStrictness strict)
    (hq : Text.isQuote q = true) (hs : q ∉ s.toList) (hbraces : ¬ ['}', '}'] <:+: s.toList)
    (limit : Nat) (context : Value) :
    ((engine.registerPartial "p" (.text "\x7b\x7b\x7bx\x7d\x7d\x7d")).render (limit + 2)
        ("\x7b\x7b> p x = " ++ Text.quote q s ++ "\x7d\x7d") context).map Outcome.result =
      some (.ok s) := by
  obtain ⟨source, span, hparse⟩ := Template.exists_parse_inclusion hq hbraces
  obtain ⟨source', span', hpartial⟩ := Template.exists_parse_raw
  let registered := engine.registerPartial "p" (.text "\x7b\x7b\x7bx\x7d\x7d\x7d")
  have hdefinition : registered.definition? "p" = some (.ok [.raw "x" source' span']) := by
    rw [definition?_registerPartial, if_pos rfl, PartialSource.parse, hdialect,
      Template.parse_withStrictness, hpartial]
  have hscope : Environment.inclusionScope context (some ("x = " ++ Text.quote q s)) =
      .ok (context.bindAll [("x", .string s)]) := by
    rw [Environment.inclusionScope, Assignment.read_quote hq hs]
    rfl
  have hdialect' : registered.dialect = Dialect.standard.withStrictness strict := hdialect
  rw [render_of_parse hdialect' hparse, execute, Environment.execute_of_segments_eq rfl]
  simp only [Environment.runSegment, Environment.runInclusion, Node.arguments?, hscope]
  cases hfetch : registered.environment.fetch "p" registered.partials with
  | mk found store =>
    obtain rfl : found = some (.ok [.raw "x" source' span']) := by
      rw [← hdefinition]
      exact (congrArg Prod.fst hfetch).symm
    have hraw : registered.environment.execute (limit + 1) [.raw "x" source' span']
        (context.bindAll [("x", .string s)]) store =
          some ⟨.ok s, context.bindAll [("x", .string s)], store, []⟩ :=
      Environment.execute_raw limit context s _ _
    exact congrArg (fun executed => (executed.map (Outcome.leaving context)).map Outcome.result)
      hraw

/-- Quoted text is compared as a whole. -/
theorem render_if_quote (hdialect : engine.dialect = Dialect.standard.withStrictness strict)
    (hif : Table.get? engine.helpers "if" = some Helper.conditional)
    (hq : Text.isQuote q = true) (hs : q ∉ s.toList) (hbraces : ¬ ['}', '}'] <:+: s.toList)
    (limit : Nat) (context : Value) :
    ∃ text ∈ ["yes", "no"], (engine.render (limit + 2)
        ("\x7b\x7b#if x == " ++ Text.quote q s ++
          "\x7d\x7dyes\x7b\x7belse\x7d\x7dno\x7b\x7b/if\x7d\x7d")
        context).map Outcome.result = some (.ok text) ∧
      (text = "yes" ↔ context.resolve? ['x'] = some (.string s)) := by
  obtain ⟨source, span, source', span', source'', span'', hparse⟩ :=
    Template.exists_parse_if hq hbraces
  obtain ⟨holds, hevaluate, hiff⟩ := Condition.evaluate_quote hq hs context
  let text := if holds then "yes" else "no"
  have hplan : Helper.conditional context
      (.helper "if" source span 0 (some ("x == " ++ Text.quote q s)))
      [.text "yes", .interpolation "else" source' span' none, .text "no"] =
        .renderHere [.text text] context := by
    simp only [Helper.conditional, Node.arguments?, hevaluate]
    cases holds <;> rfl
  have hsegments : Node.segments [.helper "if" source span 0 (some ("x == " ++ Text.quote q s)),
      .text "yes", .interpolation "else" source' span' none, .text "no",
      .close "if" source'' span'' 0] =
        [⟨.helper "if" source span 0 (some ("x == " ++ Text.quote q s)),
          [.text "yes", .interpolation "else" source' span' none, .text "no"]⟩] := rfl
  refine ⟨text, by cases holds <;> simp [text], ?_, by rw [← hiff]; cases holds <;> simp [text]⟩
  rw [render_of_parse hdialect hparse, execute, Environment.execute_helper hsegments hif, hplan,
    Plan.renderHere, Plan.run, Environment.execute_text]
  rfl

/-- Quoted text is the only argument of a function. -/
theorem render_function_quote (hdialect : engine.dialect = Dialect.standard.withStrictness strict)
    (hq : Text.isQuote q = true) (hs : q ∉ s.toList) (hbraces : ¬ ['}', '}'] <:+: s.toList)
    (f : List Value → String) (limit : Nat) (context : Value) :
    ((engine.registerFunction "f" f).render (limit + 2)
        ("\x7b\x7b#f " ++ Text.quote q s ++ "\x7d\x7d") context).map Outcome.result =
      some (.ok (f [.string s])) := by
  obtain ⟨source, span, hparse⟩ := Template.exists_parse_function hq hbraces
  have hhelper : Table.get? (engine.registerFunction "f" f).helpers "f" =
      some (Helper.ofFunction f) := by
    rw [registerFunction, registerHelper, Table.get?_insert, if_pos rfl]
  have hdialect' : (engine.registerFunction "f" f).dialect =
      Dialect.standard.withStrictness strict := hdialect
  rw [render_of_parse hdialect' hparse, execute, Environment.execute_helper rfl hhelper,
    Helper.ofFunction, Node.arguments?, Helper.resolveArguments_quote hq hs]
  rfl

/-- Whatever stands between quotes reaches a rendering as it is, through an assignment, through an
inclusion, in a comparison and as an argument of a function. -/
theorem render_quote [LawfulPartialStore σ]
    (hdialect : engine.dialect = Dialect.standard.withStrictness strict)
    (hset : Table.get? engine.helpers "set" = some (Helper.assignment Value.bindAll))
    (hif : Table.get? engine.helpers "if" = some Helper.conditional)
    (hq : Text.isQuote q = true) (hs : q ∉ s.toList) (hbraces : ¬ ['}', '}'] <:+: s.toList)
    (limit : Nat) (context : Value) :
    (engine.render (limit + 2)
        ("\x7b\x7b#set x = " ++ Text.quote q s ++ "\x7d\x7d\x7b\x7b\x7bx\x7d\x7d\x7d")
        context).map Outcome.result = some (.ok s) ∧
      ((engine.registerPartial "p" (.text "\x7b\x7b\x7bx\x7d\x7d\x7d")).render (limit + 2)
        ("\x7b\x7b> p x = " ++ Text.quote q s ++ "\x7d\x7d") context).map Outcome.result =
          some (.ok s) ∧
      (∃ text ∈ ["yes", "no"], (engine.render (limit + 2)
          ("\x7b\x7b#if x == " ++ Text.quote q s ++
            "\x7d\x7dyes\x7b\x7belse\x7d\x7dno\x7b\x7b/if\x7d\x7d")
          context).map Outcome.result = some (.ok text) ∧
        (text = "yes" ↔ context.resolve? ['x'] = some (.string s))) ∧
      ∀ f : List Value → String, ((engine.registerFunction "f" f).render (limit + 2)
        ("\x7b\x7b#f " ++ Text.quote q s ++ "\x7d\x7d") context).map Outcome.result =
          some (.ok (f [.string s])) :=
  ⟨render_set_quote hdialect hset hq hs hbraces (limit + 1) context,
    render_inclusion_quote hdialect hq hs hbraces limit context,
    render_if_quote hdialect hif hq hs hbraces limit context,
    fun f => render_function_quote hdialect hq hs hbraces f limit context⟩

/-- Separators, operators, connectives, the other quote, escapes and an opening delimiter stand
between the quotes. -/
theorem render_quote_operators :
    let engine : Engine Sources := .new .standard
    let s := ", x = \"y\" == \\ and \x7b\x7bx\x7d"
    let context : Value := .object [("x", .string s)]
    (engine.render 2 ("\x7b\x7b#set x = " ++ Text.quote '\'' s ++
        "\x7d\x7d\x7b\x7b\x7bx\x7d\x7d\x7d") context).map Outcome.result = some (.ok s) ∧
      (engine.render 2 ("\x7b\x7b#if x == " ++ Text.quote '\'' s ++
        "\x7d\x7dyes\x7b\x7belse\x7d\x7dno\x7b\x7b/if\x7d\x7d") context).map Outcome.result =
          some (.ok "yes") := by
  intro engine s context
  have hdialect : engine.dialect = Dialect.standard.withStrictness false := rfl
  have hs : '\'' ∉ s.toList := by decide
  have hbraces : ¬ ['}', '}'] <:+: s.toList := by decide
  obtain ⟨hset, -, ⟨text, -, hif, hiff⟩, -⟩ :=
    render_quote hdialect rfl rfl rfl hs hbraces 0 context
  obtain rfl := hiff.2 rfl
  exact ⟨hset, hif⟩

end Engine

end Stencil
