import Drawbridge.Proofs.Diagram.Chain

/-!
Chains as they are written. A `ChainText` is a row of node tokens with links between them, by its
parts: identifiers, labels in brackets of any kind, style classes, arrows, labels between pipes, and
spaces around all of these. Each part carries what makes it one, so every `ChainText` is a chain.

* `TokenText.splitFrom_text`, `TokenText.read?_text`: a token is passed over as a whole, whatever
  its label holds, and read as its parts;
* `LinkText.takeLink?_text`: a link is taken with its label and its spaces, and nothing else;
* `ChainText.split_exactly`: so a written chain is cut into just its tokens and links, and enters
  one edge for each link, between the nodes on both sides of it.
-/

namespace Drawbridge

abbrev Ident := {s : Text // IsIdent s}

/-- A label in brackets: between quotes, or without quotes and brackets of any kind. -/
abbrev BracketLabel := {x : Text // IsQuotedOr isNestingChar x}

/-- A label between pipes: between quotes, or without quotes and pipes. -/
abbrev PipeLabel := {x : Text // IsQuotedOr isPipeChar x}

/-! ## Tokens -/

/-- A node token by the parts that are written. -/
structure TokenText where
  id : Ident
  body : Option (NodeToken.Bracket × BracketLabel)
  styleClass : Option Ident

namespace TokenText

/-- The label of a token in its brackets. -/
def bodyText (t : TokenText) : Text :=
  match t.body with
  | some (b, x) => b.opening ++ (x.val ++ b.closing)
  | none => []

def styleText (t : TokenText) : Text :=
  match t.styleClass with
  | some c => ":::".toList ++ c.val
  | none => []

def text (t : TokenText) : Text :=
  t.id.val ++ (t.bodyText ++ t.styleText)

def token (t : TokenText) : NodeToken where
  id := t.id.val
  body := t.body.map fun (b, x) => (b.shape, unquote x.val)
  styleClass := t.styleClass.map Subtype.val

variable (t : TokenText)

theorem text_head : ∃ c r, t.text = c :: r ∧ isIdentChar c = true := by
  obtain ⟨c, r, hid⟩ := List.exists_cons_of_ne_nil t.id.property.ne_nil
  refine ⟨c, r ++ (t.bodyText ++ t.styleText), ?_, ?_⟩
  · rw [text, hid, List.cons_append]
  · exact t.id.property.ident c (hid ▸ List.mem_cons_self)

theorem styleAfter?_styleText :
    NodeToken.styleAfter? t.styleText = some (t.styleClass.map Subtype.val) := by
  unfold styleText
  cases t.styleClass with
  | none => rfl
  | some c =>
    have named : c.val.all isIdentChar = true := List.all_eq_true.mpr c.property.ident
    have shown : NodeToken.styleAfter? (":::".toList ++ c.val) =
        if c.val ≠ [] && c.val.all isIdentChar then some (some c.val) else none := rfl
    rw [shown]
    simp [c.property.ne_nil, named]

/-- **A written token is read as its parts.** -/
theorem read?_text : NodeToken.read? t.text = some t.token := by
  have style := t.styleAfter?_styleText
  unfold text token bodyText
  cases t.body with
  | none => exact NodeToken.read?_unshaped t.id.property style
  | some body =>
    obtain ⟨b, x⟩ := body
    have read := NodeToken.read?_bracketed t.id.property x.property b style
    simp only [List.append_assoc] at read ⊢
    exact read

theorem isTokenChar_of_mem_styleText : ∀ c ∈ t.styleText, isTokenChar c = true := by
  unfold styleText
  cases t.styleClass with
  | none => nofun
  | some name =>
    intro c hc
    rcases List.mem_append.mp hc with hc | hc
    · have colons : ∀ c ∈ ":::".toList, isTokenChar c = true := by decide
      exact colons c hc
    · exact isTokenChar_of_isIdentChar (name.property.ident c hc)

/-- **Outside brackets, a written token is passed over.** -/
theorem splitFrom_text (s : Text) :
    splitFrom 0 0 false (t.text ++ s) = (splitFrom 0 0 false s).prepend t.text := by
  have name : ∀ c ∈ t.id.val, isTokenChar c = true :=
    fun c hc => isTokenChar_of_isIdentChar (t.id.property.ident c hc)
  have body : splitFrom 0 0 false (t.bodyText ++ (t.styleText ++ s)) =
      (splitFrom 0 0 false (t.styleText ++ s)).prepend t.bodyText := by
    unfold bodyText
    cases t.body with
    | none => rfl
    | some body =>
      obtain ⟨b, x⟩ := body
      simpa only [List.append_assoc] using splitFrom_bracket x.property b 0 (t.styleText ++ s)
  have style := splitFrom_token t.isTokenChar_of_mem_styleText s
  simp only [text, List.append_assoc]
  rw [splitFrom_token name, body, style]
  simp [Chain.prepend]

/-- A token ends with its name, a bracket or its style class. -/
theorem text_getLast : ∀ c ∈ t.text.getLast?, isBlank c = false := by
  have append : ∀ {s r : Text}, (∀ c ∈ s.getLast?, isBlank c = false) →
      (∀ c ∈ r.getLast?, isBlank c = false) → ∀ c ∈ (s ++ r).getLast?, isBlank c = false := by
    intro s r hs hr c hc
    rw [List.getLast?_append, Option.mem_def, Option.or_eq_some_iff] at hc
    rcases hc with hc | ⟨-, hc⟩
    · exact hr c hc
    · exact hs c hc
  have name : ∀ c ∈ t.id.val.getLast?, isBlank c = false :=
    fun c hc => not_blank_of_isIdentChar (t.id.property.ident c (List.mem_of_getLast? hc))
  have body : ∀ c ∈ t.bodyText.getLast?, isBlank c = false := by
    unfold bodyText
    cases t.body with
    | none => nofun
    | some body =>
      obtain ⟨b, x⟩ := body
      have closed : ∃ s c, b.closing = s ++ [c] ∧ isBlank c = false := by
        cases b
        · exact ⟨[], ']', rfl, by decide⟩
        · exact ⟨[], ')', rfl, by decide⟩
        · exact ⟨[')'], ')', rfl, by decide⟩
        · exact ⟨[], '}', rfl, by decide⟩
      obtain ⟨s, c, hb, hc⟩ := closed
      intro d hd
      simp only [hb, ← List.append_assoc, List.getLast?_concat] at hd
      cases hd
      exact hc
  have style : ∀ c ∈ t.styleText.getLast?, isBlank c = false :=
    fun c hc => not_blank_of_isTokenChar
      (t.isTokenChar_of_mem_styleText c (List.mem_of_getLast? hc))
  exact append name (append body style)

theorem strip_text : strip t.text = t.text := by
  apply strip_eq_self _ t.text_getLast
  obtain ⟨c, r, ht, hc⟩ := t.text_head
  intro d hd
  rw [ht] at hd
  cases hd
  exact not_blank_of_isIdentChar hc

end TokenText

/-! ## Links -/

/-- A link by the parts that are written: an arrow between spaces, and perhaps a label between
pipes with spaces behind it. -/
structure LinkText where
  before : Nat
  arrow : {a : Text // a ∈ chainArrows}
  behind : Nat
  label : Option (PipeLabel × Nat)

namespace LinkText

/-- The label of a link between its pipes, with the spaces behind it. -/
def labelText (l : LinkText) : Text :=
  match l.label with
  | some (x, after) => '|' :: (x.val ++ '|' :: spaces after)
  | none => []

def text (l : LinkText) : Text :=
  spaces l.before ++ (l.arrow.val ++ (spaces l.behind ++ l.labelText))

def link (l : LinkText) : Link where
  arrow := l.arrow.val
  label := l.label.map fun (x, _) => x.val

/-- The label of the edge that a link stands for. -/
def caption (l : LinkText) : Text :=
  match l.label with
  | some (x, _) => unquote x.val
  | none => []

variable (l : LinkText)

theorem unquote_label : unquote (l.link.label.getD []) = l.caption := by
  unfold link caption
  cases l.label with
  | none => rfl
  | some _ => rfl

/-- A link begins with a space or with its arrow. -/
theorem text_head : ∃ c r, l.text = c :: r ∧ isNestingChar c = false := by
  have starts : ∀ a ∈ chainArrows, ∃ c q, a = c :: q ∧ isNestingChar c = false := by
    intro a ha
    simp only [chainArrows, List.mem_cons, List.not_mem_nil, or_false] at ha
    rcases ha with rfl | rfl | rfl | rfl <;> exact ⟨_, _, rfl, by decide⟩
  unfold text
  cases l.before with
  | zero =>
    obtain ⟨c, q, ha, hc⟩ := starts l.arrow.val l.arrow.property
    rw [ha]
    exact ⟨c, _, rfl, hc⟩
  | succ n => exact ⟨' ', _, rfl, by decide⟩

/-- **Before a node, a written link is taken with its label and its spaces.** -/
theorem takeLink?_text {r : Text} (hr : ∃ c q, r = c :: q ∧ isIdentChar c = true) :
    takeLink? (l.text ++ r) = some (l.link, r) := by
  obtain ⟨c, q, rfl, hc⟩ := hr
  have solid : ∀ d ∈ (c :: q).head?, isBlank d = false := by
    intro d hd
    cases hd
    exact not_blank_of_isIdentChar hc
  have unpiped : (c :: q).head? ≠ some '|' := by
    rintro ⟨⟩
    exact absurd hc (by decide)
  unfold text link labelText
  cases l.label with
  | none =>
    have taken := takeLink?_unlabelled l.arrow.property l.before l.behind solid unpiped
    simpa using taken
  | some label =>
    obtain ⟨x, after⟩ := label
    have taken := takeLink?_labelled l.arrow.property l.before l.behind after x.property solid
    simpa using taken

end LinkText

/-! ## Chains -/

/-- A chain by the parts that are written: a token, and then links with a token behind each. -/
structure ChainText where
  first : TokenText
  rest : List (LinkText × TokenText)

namespace ChainText

def restText (rest : List (LinkText × TokenText)) : Text :=
  rest.flatMap fun (l, t) => l.text ++ t.text

def text (c : ChainText) : Text :=
  c.first.text ++ restText c.rest

def chain (c : ChainText) : Chain where
  first := c.first.text
  rest := c.rest.map fun (l, t) => (l.link, t.text)

def tokens (c : ChainText) : List TokenText :=
  c.first :: c.rest.map Prod.snd

/-- For each link, an edge from the token before it to the one behind it. -/
def edges (c : ChainText) : List Edge :=
  (c.tokens.zip c.rest).map fun (source, l, target) =>
    { source := source.id.val, target := target.id.val, label := l.caption }

theorem edges_length (c : ChainText) : c.edges.length = c.rest.length := by
  simp [edges, tokens]

theorem edges_cons (first t : TokenText) (l : LinkText) (rest : List (LinkText × TokenText)) :
    edges ⟨first, (l, t) :: rest⟩ = ⟨first.id.val, t.id.val, l.caption⟩ :: edges ⟨t, rest⟩ :=
  rfl

theorem splitFrom_restText (rest : List (LinkText × TokenText)) :
    splitFrom 0 0 false (restText rest) = ⟨[], rest.map fun (l, t) => (l.link, t.text)⟩ := by
  induction rest with
  | nil => rfl
  | cons p rest ih =>
    obtain ⟨l, t⟩ := p
    have tokenNext : ∃ c q, t.text ++ restText rest = c :: q ∧ isIdentChar c = true := by
      obtain ⟨c, q, ht, hc⟩ := t.text_head
      exact ⟨c, q ++ restText rest, by rw [ht, List.cons_append], hc⟩
    have line : restText ((l, t) :: rest) = l.text ++ (t.text ++ restText rest) := by
      simp [restText]
    rw [line, splitFrom_link l.text_head (l.takeLink?_text tokenNext), t.splitFrom_text, ih]
    simp [Chain.prepend]

theorem splitChain_text (c : ChainText) : splitChain c.text = c.chain := by
  rw [splitChain, text, c.first.splitFrom_text, splitFrom_restText]
  simp [Chain.prepend, chain]

theorem addToken_edges (d : Draft) (t : NodeToken) (groups : List Text) :
    (d.addToken t groups).edges = d.edges := by
  show (d.touch t.id groups).edges = d.edges
  unfold Draft.touch
  split <;> rfl

theorem addTokens_text (d : Draft) (number : Nat) (groups : List Text) (ts : List TokenText) :
    ∃ d', d.addTokens number groups (ts.map TokenText.text) = .ok (d', ts.map (·.id.val)) ∧
      d'.edges = d.edges := by
  induction ts generalizing d with
  | nil => exact ⟨d, rfl, rfl⟩
  | cons t ts ih =>
    have first : d.addTokenText number groups t.text =
        .ok (d.addToken t.token groups, t.id.val) := by
      rw [Draft.addTokenText, t.strip_text, t.read?_text]
      rfl
    obtain ⟨d', rest, kept⟩ := ih (d.addToken t.token groups)
    refine ⟨d', ?_, kept.trans (addToken_edges d t.token groups)⟩
    rw [List.map_cons, Draft.addTokens, first]
    show (Draft.addTokens _ number groups _ >>= _) = _
    rw [rest]
    rfl

/-- The edges between tokens, one for each link, go behind those that were there. -/
theorem addEdges_text (d : Draft) (first : TokenText) (rest : List (LinkText × TokenText)) :
    (d.addEdges (first.id.val :: rest.map (·.2.id.val)) (rest.map (·.1.link))).edges =
      d.edges ++ edges ⟨first, rest⟩ := by
  induction rest generalizing d first with
  | nil => simp [Draft.addEdges, edges]
  | cons p rest ih =>
    obtain ⟨l, t⟩ := p
    simp only [List.map_cons, Draft.addEdges, l.unquote_label]
    rw [ih, edges_cons]
    simp [Draft.addEdge]

/--
**A written chain is taken apart exactly.** Cutting it gives its tokens and links, with whatever
stands in their labels, and entering these succeeds and adds just one edge for each link, from the
node before it to the node behind it and with its label.
-/
theorem split_exactly (c : ChainText) :
    splitChain c.text = c.chain ∧ c.edges.length = c.rest.length ∧
      ∀ (d : Draft) (number : Nat) (groups : List Text), ∃ d',
        d.addChain number groups (splitChain c.text) = .ok d' ∧ d'.edges = d.edges ++ c.edges := by
  refine ⟨c.splitChain_text, c.edges_length, ?_⟩
  intro d number groups
  obtain ⟨d', entered, kept⟩ := addTokens_text d number groups c.tokens
  have texts : c.tokens.map TokenText.text = c.chain.first :: c.chain.rest.map Prod.snd := by
    simp [tokens, chain]
  have ids : c.tokens.map (·.id.val) = c.first.id.val :: c.rest.map (·.2.id.val) := by
    simp [tokens]
  have links : c.chain.rest.map Prod.fst = c.rest.map (·.1.link) := by
    simp [chain]
  rw [texts, ids] at entered
  refine ⟨d'.addEdges (c.first.id.val :: c.rest.map (·.2.id.val)) (c.rest.map (·.1.link)), ?_, ?_⟩
  · rw [c.splitChain_text, Draft.addChain, entered, ← links]
    rfl
  · rw [addEdges_text, kept]

/-- Neither an arrow in brackets nor a pipe in quotes cuts a chain. -/
example : splitChain "A[a --> b] ==>|\"x|y\"|  B_2\x7b\"---\"\x7d:::hot-.->c".toList =
    ⟨"A[a --> b]".toList,
      [(⟨"==>".toList, some "\"x|y\"".toList⟩, "B_2\x7b\"---\"\x7d:::hot".toList),
        (⟨"-.->".toList, none⟩, "c".toList)]⟩ := by
  decide +kernel

end ChainText

end Drawbridge
