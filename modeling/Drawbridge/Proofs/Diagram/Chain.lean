import Drawbridge.Diagram.Chain
import Drawbridge.Proofs.Diagram.NodeToken

/-!
Cutting written lines at their links. Whatever a written text holds, it is passed over: in brackets
up to the one that closes them, and in quotes up to the closing quote.

* `splitChain_shaped`: the line of a node is one token and has no link;
* `splitChain_piped`: the line of an edge is its two ends with one link between them, and
  `splitChain_edge` says so of an edge with a label.
-/

namespace Drawbridge

def Chain.prepend (p : Text) (ch : Chain) : Chain :=
  { ch with first := p ++ ch.first }

theorem Chain.cons_prepend (c : Char) (p : Text) (ch : Chain) :
    (ch.prepend p).cons c = ch.prepend (c :: p) := rfl

/-! ## Passing over labels -/

/-- What becomes of a character that no link has taken. -/
theorem splitFrom_cons (depth : Nat) (inQuote : Bool) (c : Char) (s : Text) :
    splitFrom 0 depth inQuote (c :: s) =
      if c = '"' then (splitFrom 0 depth (!inQuote) s).cons c
      else if inQuote then (splitFrom 0 depth inQuote s).cons c
      else if c = '[' || c = '\x7b' || c = '(' then (splitFrom 0 (depth + 1) inQuote s).cons c
      else if c = ']' || c = '\x7d' || c = ')' then (splitFrom 0 (depth - 1) inQuote s).cons c
      else if depth = 0 then
        match takeLink? (c :: s) with
        | some (link, r) =>
          let ch := splitFrom (s.length - r.length) 0 false s
          ⟨[], (link, ch.first) :: ch.rest⟩
        | none => (splitFrom 0 depth inQuote s).cons c
      else (splitFrom 0 depth inQuote s).cons c :=
  (rfl)

/-- A character that changes no depth matters only outside brackets, where a link may begin. -/
theorem splitFrom_of_not_nesting {c : Char} (h : isNestingChar c = false) (depth : Nat) (s : Text) :
    splitFrom 0 depth false (c :: s) =
      if depth = 0 then
        match takeLink? (c :: s) with
        | some (link, r) =>
          let ch := splitFrom (s.length - r.length) 0 false s
          ⟨[], (link, ch.first) :: ch.rest⟩
        | none => (splitFrom 0 depth false s).cons c
      else (splitFrom 0 depth false s).cons c := by
  have other : ∀ d, isNestingChar d = true → c ≠ d := fun d hd => (ne_of_class hd h).symm
  have opens : ¬ (c = '[' || c = '\x7b' || c = '(') = true := by
    simp [other '[' (by decide), other '\x7b' (by decide), other '(' (by decide)]
  have closes : ¬ (c = ']' || c = '\x7d' || c = ')') = true := by
    simp [other ']' (by decide), other '\x7d' (by decide), other ')' (by decide)]
  have quote := other '"' (by decide)
  rw [splitFrom_cons, if_neg quote, if_neg Bool.false_ne_true, if_neg opens, if_neg closes]

/-- Inside brackets a character that changes no depth is passed over. -/
theorem splitFrom_inside {c : Char} (h : isNestingChar c = false) (depth : Nat) (s : Text) :
    splitFrom 0 (depth + 1) false (c :: s) = (splitFrom 0 (depth + 1) false s).cons c := by
  rw [splitFrom_of_not_nesting h, if_neg (Nat.succ_ne_zero depth)]

/-- Outside brackets it is passed over unless a link begins with it. -/
theorem splitFrom_outside {c : Char} (h : isNestingChar c = false) {s : Text}
    (hl : takeLink? (c :: s) = none) :
    splitFrom 0 0 false (c :: s) = (splitFrom 0 0 false s).cons c := by
  rw [splitFrom_of_not_nesting h, if_pos rfl, hl]

/-- Inside brackets, a text without brackets and quotes is passed over. -/
theorem splitFrom_nested {p : Text} (hp : ∀ c ∈ p, isNestingChar c = false) (depth : Nat)
    (s : Text) :
    splitFrom 0 (depth + 1) false (p ++ s) = (splitFrom 0 (depth + 1) false s).prepend p := by
  induction p with
  | nil => rfl
  | cons c p ih =>
    rw [List.cons_append, splitFrom_inside (hp c List.mem_cons_self),
      ih fun d hd => hp d (List.mem_cons_of_mem c hd), Chain.cons_prepend]

/-- An open quote is passed over up to its end. -/
theorem splitFrom_unquote {p : Text} (hp : '"' ∉ p) (depth : Nat) (s : Text) :
    splitFrom 0 depth true (p ++ '"' :: s) = (splitFrom 0 depth false s).prepend (p ++ ['"']) := by
  induction p with
  | nil =>
    rw [List.nil_append, splitFrom_cons, if_pos rfl]
    rfl
  | cons c p ih =>
    rw [List.mem_cons, not_or] at hp
    rw [List.cons_append, splitFrom_cons, if_neg (Ne.symm hp.1), if_pos rfl, ih hp.2]
    rfl

/-- Inside brackets, a label is passed over. -/
theorem splitFrom_quotedOr {x : Text} (hx : IsQuotedOr isNestingChar x) (depth : Nat) (s : Text) :
    splitFrom 0 (depth + 1) false (x ++ s) = (splitFrom 0 (depth + 1) false s).prepend x := by
  rcases hx with ⟨t, ht, rfl⟩ | plain
  · have inside := splitFrom_unquote ht (depth + 1) s
    rw [List.cons_append, List.append_assoc, List.singleton_append, splitFrom_cons, if_pos rfl,
      Bool.not_false, inside]
    rfl
  · exact splitFrom_nested plain depth s

theorem splitFrom_open {c : Char} (h : c ∈ ['[', '\x7b', '(']) (depth : Nat) (s : Text) :
    splitFrom 0 depth false (c :: s) = (splitFrom 0 (depth + 1) false s).cons c := by
  simp only [List.mem_cons, List.not_mem_nil, or_false] at h
  rcases h with rfl | rfl | rfl <;> rfl

theorem splitFrom_close {c : Char} (h : c ∈ [']', '\x7d', ')']) (depth : Nat) (s : Text) :
    splitFrom 0 (depth + 1) false (c :: s) = (splitFrom 0 depth false s).cons c := by
  simp only [List.mem_cons, List.not_mem_nil, or_false] at h
  rcases h with rfl | rfl | rfl <;> rfl

theorem splitFrom_bracket {x : Text} (hx : IsQuotedOr isNestingChar x) (b : NodeToken.Bracket)
    (depth : Nat) (s : Text) :
    splitFrom 0 depth false (b.opening ++ (x ++ (b.closing ++ s))) =
      (splitFrom 0 depth false s).prepend (b.opening ++ (x ++ b.closing)) := by
  cases b with
  | square | round | curly =>
    simp only [NodeToken.Bracket.opening, NodeToken.Bracket.closing, List.cons_append,
      List.nil_append]
    rw [splitFrom_open (by decide), splitFrom_quotedOr hx, splitFrom_close (by decide)]
    simp [Chain.prepend, Chain.cons]
  | double =>
    simp only [NodeToken.Bracket.opening, NodeToken.Bracket.closing, List.cons_append,
      List.nil_append]
    rw [splitFrom_open (by decide), splitFrom_open (by decide), splitFrom_quotedOr hx,
      splitFrom_close (by decide), splitFrom_close (by decide)]
    simp [Chain.prepend, Chain.cons]

/-! ## Links -/

/-- A character that can stand in a token outside brackets: those of identifiers, and the colon. -/
def isTokenChar (c : Char) : Bool :=
  isIdentChar c || c = ':'

theorem isTokenChar_of_isIdentChar {c : Char} (h : isIdentChar c = true) :
    isTokenChar c = true := by
  simp [isTokenChar, h]

theorem not_blank_of_isTokenChar {c : Char} (h : isTokenChar c = true) : isBlank c = false := by
  simp only [isTokenChar, Bool.or_eq_true, decide_eq_true_eq] at h
  rcases h with h | rfl
  · exact not_blank_of_isIdentChar h
  · decide

theorem not_nesting_of_isTokenChar {c : Char} (h : isTokenChar c = true) :
    isNestingChar c = false := by
  by_contra hn
  rw [Bool.not_eq_false] at hn
  have nesting : c ∈ "\"[]\x7b\x7d()".toList := List.contains_iff_mem.mp hn
  have other : ∀ d ∈ "\"[]\x7b\x7d()".toList, isTokenChar d = false := by decide
  rw [other c nesting] at h
  cases h

theorem takeLink?_eq_none {c : Char} (h : isTokenChar c = true) (s : Text) :
    takeLink? (c :: s) = none := by
  have solid : stripLeft (c :: s) = c :: s :=
    List.dropWhile_cons_of_neg (by simp [not_blank_of_isTokenChar h])
  have dash : '-' ≠ c := (ne_of_class h (by decide)).symm
  have double : '=' ≠ c := (ne_of_class h (by decide)).symm
  have unlinked : (chainArrows.findSome? fun a =>
      (afterPrefix? a (stripLeft (c :: s))).map fun r => (a, r)) = none := by
    rw [solid, List.findSome?_eq_none_iff]
    have starts : ∀ a ∈ chainArrows, a.head? = some '-' ∨ a.head? = some '=' := by decide
    intro a ha
    rcases starts a ha with hd | hd <;> obtain ⟨r, rfl⟩ := List.head?_eq_some_iff.mp hd
    · rw [afterPrefix?, if_neg dash]
      rfl
    · rw [afterPrefix?, if_neg double]
      rfl
  unfold takeLink?
  rw [unlinked]
  rfl

/-- Outside brackets, a token is passed over. -/
theorem splitFrom_token {p : Text} (hp : ∀ c ∈ p, isTokenChar c = true) (s : Text) :
    splitFrom 0 0 false (p ++ s) = (splitFrom 0 0 false s).prepend p := by
  induction p with
  | nil => rfl
  | cons c p ih =>
    have hc := hp c List.mem_cons_self
    rw [List.cons_append,
      splitFrom_outside (not_nesting_of_isTokenChar hc) (takeLink?_eq_none hc (p ++ s)),
      ih fun d hd => hp d (List.mem_cons_of_mem c hd), Chain.cons_prepend]

theorem splitFrom_token_alone {p : Text} (hp : ∀ c ∈ p, isTokenChar c = true) :
    splitFrom 0 0 false p = ⟨p, []⟩ := by
  have whole := splitFrom_token hp []
  have empty : splitFrom 0 0 false [] = ⟨[], []⟩ := rfl
  rw [List.append_nil, empty] at whole
  simpa [Chain.prepend] using whole

/-- Characters that a link has taken are passed over. -/
theorem splitFrom_skip (skip depth : Nat) (inQuote : Bool) (s : Text) :
    splitFrom skip depth inQuote s = splitFrom 0 depth inQuote (s.drop skip) := by
  induction skip generalizing s with
  | zero => rfl
  | succ skip ih =>
    cases s with
    | nil => rfl
    | cons c s => exact ih s

/-- Where a link has been written, the token before it ends and the one after it begins. -/
theorem splitFrom_link {p r : Text} {link : Link} (hp : ∃ c q, p = c :: q ∧ isNestingChar c = false)
    (hl : takeLink? (p ++ r) = some (link, r)) :
    splitFrom 0 0 false (p ++ r) =
      ⟨[], (link, (splitFrom 0 0 false r).first) :: (splitFrom 0 0 false r).rest⟩ := by
  obtain ⟨c, q, rfl, hc⟩ := hp
  have behind : (q ++ r).drop ((q ++ r).length - r.length) = r := by simp
  rw [List.cons_append] at hl ⊢
  rw [splitFrom_of_not_nesting hc, if_pos rfl, hl]
  simp only [splitFrom_skip ((q ++ r).length - r.length), behind]

/-- A label between pipes is taken up to the second one. -/
theorem takePipeLabel?_quotedOr {x : Text} (hx : IsQuotedOr isPipeChar x) (r : Text) :
    takePipeLabel? ('|' :: (x ++ '|' :: r)) = some (x, r) := by
  have closes : afterPrefix? ['|'] ('|' :: r) = some r := afterPrefix?_append ['|'] r
  rcases hx with ⟨t, ht, rfl⟩ | plain <;> rw [takePipeLabel?]
  · rw [NodeToken.takeQuoted?_closed ht, Option.bind_some]
    simp [closes]
  · have unquoted : NodeToken.takeQuoted? (x ++ '|' :: r) = none := by
      apply NodeToken.takeQuoted?_eq_none
      cases x with
      | nil => simp
      | cons c x =>
        intro hc
        cases hc
        exact absurd (plain '"' List.mem_cons_self) (by decide)
    have free : '|' ∉ x := fun hm => absurd (plain '|' hm) (by decide)
    rw [unquoted, cutAt?_append free]
    rfl

def spaces (n : Nat) : Text :=
  List.replicate n ' '

theorem stripLeft_spaces (n : Nat) {s : Text} (hs : ∀ c ∈ s.head?, isBlank c = false) :
    stripLeft (spaces n ++ s) = s := by
  have blank : ∀ c ∈ spaces n, isBlank c = true := by
    intro c hc
    rw [List.eq_of_mem_replicate hc]
    decide
  rw [stripLeft, List.dropWhile_append_of_pos blank]
  cases s with
  | nil => rfl
  | cons c s => exact List.dropWhile_cons_of_neg (by simp [hs c rfl])

/-- The first arrow that fits is the one that stands there. -/
theorem findArrow_append {a : Text} (ha : a ∈ chainArrows) (r : Text) :
    (chainArrows.findSome? fun b => (afterPrefix? b (a ++ r)).map fun r => (b, r)) =
      some (a, r) := by
  simp only [chainArrows, List.mem_cons, List.not_mem_nil, or_false] at ha
  rcases ha with rfl | rfl | rfl | rfl <;> rfl

/-- An arrow is taken with the spaces around it, and then a label if there is one. -/
theorem takeLink?_arrow {a : Text} (ha : a ∈ chainArrows) (before behind : Nat) {r : Text}
    (hr : ∀ c ∈ r.head?, isBlank c = false) :
    takeLink? (spaces before ++ (a ++ (spaces behind ++ r))) =
      match takePipeLabel? r with
      | some (label, r) => some ({ arrow := a, label := some label }, stripLeft r)
      | none => some ({ arrow := a, label := none }, r) := by
  have starts : ∀ b ∈ chainArrows, ∃ c q, b = c :: q ∧ isBlank c = false := by
    intro b hb
    simp only [chainArrows, List.mem_cons, List.not_mem_nil, or_false] at hb
    rcases hb with rfl | rfl | rfl | rfl <;> exact ⟨_, _, rfl, by decide⟩
  have solid : ∀ c ∈ (a ++ (spaces behind ++ r)).head?, isBlank c = false := by
    obtain ⟨c, q, rfl, hc⟩ := starts a ha
    intro d hd
    cases hd
    exact hc
  unfold takeLink?
  rw [stripLeft_spaces before solid, findArrow_append ha]
  show some _ = _
  rw [stripLeft_spaces behind hr]
  cases takePipeLabel? r <;> rfl

/-- A label follows an arrow in pipes only. -/
theorem takePipeLabel?_eq_none {r : Text} (hr : r.head? ≠ some '|') : takePipeLabel? r = none := by
  unfold takePipeLabel?
  split
  · exact (hr rfl).elim
  · rfl

theorem takeLink?_unlabelled {a : Text} (ha : a ∈ chainArrows) (before behind : Nat) {r : Text}
    (hr : ∀ c ∈ r.head?, isBlank c = false) (unpiped : r.head? ≠ some '|') :
    takeLink? (spaces before ++ (a ++ (spaces behind ++ r))) =
      some ({ arrow := a, label := none }, r) := by
  rw [takeLink?_arrow ha before behind hr, takePipeLabel?_eq_none unpiped]

theorem takeLink?_labelled {a : Text} (ha : a ∈ chainArrows) (before behind after : Nat) {x : Text}
    (hx : IsQuotedOr isPipeChar x) {r : Text} (hr : ∀ c ∈ r.head?, isBlank c = false) :
    takeLink? (spaces before ++ (a ++ (spaces behind ++ '|' :: (x ++ '|' :: (spaces after ++ r))))) =
      some ({ arrow := a, label := some x }, r) := by
  have pipe : ∀ c ∈ ('|' :: (x ++ '|' :: (spaces after ++ r))).head?, isBlank c = false := by
    intro c hc
    cases hc
    decide
  rw [takeLink?_arrow ha before behind pipe, takePipeLabel?_quotedOr hx]
  show some _ = _
  rw [stripLeft_spaces after hr]

/-- A text behind an arrow, in pipes, if there is one. -/
def pipeText : Option Text → Text
  | none => []
  | some x => '|' :: (x ++ ['|'])

def linkWith (x : Option Text) : Link :=
  { arrow := "-->".toList, label := x }

/-- A label behind an arrow as it is written; none if it is empty. -/
def writtenLabel? (l : Text) : Option Text :=
  if l = [] then none else some (quoteLabel l)

/-- A label behind an arrow, in pipes; none if it is empty. -/
def pipeLabel (l : Text) : Text :=
  if l = [] then [] else '|' :: (quoteLabel l ++ ['|'])

def linkOf (l : Text) : Link :=
  { arrow := "-->".toList, label := if l = [] then none else some (quoteLabel l) }

theorem pipeLabel_eq (l : Text) : pipeLabel l = pipeText (writtenLabel? l) := by
  unfold pipeLabel writtenLabel?
  split <;> rfl

theorem isWritten_writtenLabel? (l : Text) : ∀ x ∈ writtenLabel? l, IsWritten x := by
  intro x hx
  unfold writtenLabel? at hx
  split at hx
  · cases hx
  · cases hx
    exact isWritten_quoteLabel l

/-- The link of a written edge is taken with the blanks around it. -/
theorem takeLink?_piped {target : Text} (ht : IsName target) {x : Option Text}
    (hx : ∀ y ∈ x, IsWritten y) :
    takeLink? (" -->".toList ++ pipeText x ++ [' '] ++ target) = some (linkWith x, target) := by
  have arrow : "-->".toList ∈ chainArrows := by decide
  obtain ⟨c, r, rfl, hc⟩ := ht.capital
  have solid : ∀ d ∈ (c :: r).head?, isBlank d = false := by
    intro d hd
    cases hd
    exact ht.solid c List.mem_cons_self
  cases x with
  | none =>
    have unpiped : (c :: r).head? ≠ some '|' := by
      rintro ⟨⟩
      exact absurd hc (by decide)
    exact takeLink?_unlabelled arrow 1 1 solid unpiped
  | some y =>
    have line : " -->".toList ++ pipeText (some y) ++ [' '] ++ c :: r =
        spaces 1 ++ ("-->".toList ++ (spaces 0 ++ '|' :: (y ++ '|' :: (spaces 1 ++ c :: r)))) := by
      simp [pipeText, spaces]
    rw [line]
    exact takeLink?_labelled arrow 1 0 1 (hx y rfl).piped solid

/-- **The line of a node is one token.** -/
theorem splitChain_shaped {id x tail : Text} (hid : IsName id) (hx : IsWritten x) (shape : Shape)
    (ht : ∀ c ∈ tail, isTokenChar c = true) :
    splitChain (id ++ (brackets shape).1 ++ x ++ (brackets shape).2 ++ tail) =
      ⟨id ++ (brackets shape).1 ++ x ++ (brackets shape).2 ++ tail, []⟩ := by
  have name : ∀ c ∈ id, isTokenChar c = true :=
    fun c hc => isTokenChar_of_isIdentChar (hid.ident c hc)
  simp only [NodeToken.Bracket.brackets_eq, List.append_assoc]
  rw [splitChain, splitFrom_token name, splitFrom_bracket hx.nesting, splitFrom_token_alone ht]
  simp [Chain.prepend]

/-- **The line of an edge is its ends with one link between them.** -/
theorem splitChain_piped {source target : Text} (hs : IsName source) (ht : IsName target)
    {x : Option Text} (hx : ∀ y ∈ x, IsWritten y) :
    splitChain (source ++ " -->".toList ++ pipeText x ++ [' '] ++ target) =
      ⟨source, [(linkWith x, target)]⟩ := by
  have name : ∀ {s : Text}, IsName s → ∀ c ∈ s, isTokenChar c = true :=
    fun hn c hc => isTokenChar_of_isIdentChar (hn.ident c hc)
  have mark : ∃ c q, " -->".toList ++ pipeText x ++ [' '] = c :: q ∧ isNestingChar c = false :=
    ⟨' ', "-->".toList ++ pipeText x ++ [' '], rfl, by decide⟩
  have linked := splitFrom_link mark (takeLink?_piped ht hx)
  rw [splitFrom_token_alone (name ht)] at linked
  simp only [List.append_assoc] at linked ⊢
  rw [splitChain, splitFrom_token (name hs), linked]
  simp [Chain.prepend]

theorem splitChain_edge {source target : Text} (hs : IsName source) (ht : IsName target)
    (l : Text) :
    splitChain (source ++ " -->".toList ++ pipeLabel l ++ [' '] ++ target) =
      ⟨source, [(linkOf l, target)]⟩ := by
  rw [pipeLabel_eq]
  exact splitChain_piped hs ht (isWritten_writtenLabel? l)

end Drawbridge
