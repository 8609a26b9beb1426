import Drawbridge.Diagram.Chain
import Drawbridge.Failure

/-!
Strict reading. An operation is strict if it fails when what it is to take is not there: an item at
a position, the last item of a list, the value at a key, two pieces of a text, something that may be
absent. The failure is one of the program (`Failure.general`, `Failure.fault`) and no rejection of
the text. Labels and nodes are read here with such operations, and none of them fails, so what comes
out is what reading gives: a result, or a rejection (`rejecting`).

* `unquote_eq`: both ends of a label are there if they are looked at;
* `change_touch`: a node that was mentioned is there;
* `token_eq`, `addNode_eq`: node tokens are read and entered alike.
-/

namespace Drawbridge

namespace Strict

variable {α β σ : Type}

/-! ## Strict operations -/

def item (xs : List α) (i : Nat) : Except Failure α :=
  match xs[i]? with
  | some x => .ok x
  | none => .error (.general .index [])

def last (xs : List α) : Except Failure α :=
  match xs.getLast? with
  | some x => .ok x
  | none => .error (.general .index [])

def withoutLast : List α → Except Failure (List α)
  | [] => .error (.general .index [])
  | x :: xs => .ok (x :: xs).dropLast

def entry (d : Dictionary α) (key : Text) : Except Failure α :=
  match d.get? key with
  | some v => .ok v
  | none => .error (.general .key [.str key])

/-- Two pieces, no more and no less. -/
def pair : List Text → Except Failure (Text × Text)
  | [a, b] => .ok (a, b)
  | _ => .error (.general .value [])

/-- What may be absent. -/
def given : Option α → Except Failure α
  | some a => .ok a
  | none => .error (.fault .noSuchMember)

theorem item_ok {xs : List α} {i : Nat} {x : α} (h : xs[i]? = some x) : item xs i = .ok x := by
  rw [item, h]

theorem last_ok {xs : List α} {x : α} (h : xs.getLast? = some x) : last xs = .ok x := by
  rw [last, h]

theorem withoutLast_ok {xs : List α} (h : xs ≠ []) : withoutLast xs = .ok xs.dropLast := by
  cases xs with
  | nil => exact (h rfl).elim
  | cons x xs => rfl

theorem entry_ok {d : Dictionary α} {key : Text} {v : α} (h : d.get? key = some v) :
    entry d key = .ok v := by
  rw [entry, h]

/-! ## Rejections as failures -/

/-- The outcome of a reader, its rejections as failures. -/
def rejecting (x : Except Rejection α) : Except Failure α :=
  x.mapError .rejected

theorem rejecting_bind (x : Except Rejection α) (f : α → Except Rejection β) :
    rejecting (x >>= f) = rejecting x >>= fun a => rejecting (f a) := by
  cases x <;> rfl

/-- A run of strict steps is that of the steps they stand for. -/
theorem foldlM_rejecting {l : List α} {strict : σ → α → Except Failure σ}
    {step : σ → α → Except Rejection σ} (same : ∀ a ∈ l, ∀ s, strict s a = rejecting (step s a))
    (s : σ) : l.foldlM strict s = rejecting (l.foldlM step s) := by
  induction l generalizing s with
  | nil => rfl
  | cons a l ih =>
    have rest : ∀ s, l.foldlM strict s = rejecting (l.foldlM step s) :=
      ih fun b hb => same b (List.mem_cons_of_mem a hb)
    rw [List.foldlM_cons, List.foldlM_cons, rejecting_bind, same a List.mem_cons_self]
    simp only [rest]

theorem mapM_ok {l : List α} {strict : α → Except Failure β} {f : α → β}
    (same : ∀ a ∈ l, strict a = .ok (f a)) : l.mapM strict = .ok (l.map f) := by
  induction l with
  | nil => rfl
  | cons a l ih =>
    rw [List.mapM_cons, same a List.mem_cons_self, ih fun b hb => same b (List.mem_cons_of_mem a hb)]
    rfl

/-- Strict steps may be taken over those items only that have a result at all. -/
theorem mapM_filter_ok {l : List α} {p : α → Bool} {strict : α → Except Failure β}
    {f : α → Option β} (passed : ∀ a ∈ l, p a = false → f a = none)
    (taken : ∀ a ∈ l, p a = true → ∃ b, strict a = .ok b ∧ f a = some b) :
    (l.filter p).mapM strict = .ok (l.filterMap f) := by
  induction l with
  | nil => rfl
  | cons a l ih =>
    have rest := ih (fun b hb => passed b (List.mem_cons_of_mem a hb))
      (fun b hb => taken b (List.mem_cons_of_mem a hb))
    cases ha : p a with
    | false =>
      simp only [List.filter_cons, List.filterMap_cons, ha, passed a List.mem_cons_self ha]
      exact rest
    | true =>
      obtain ⟨b, here, found⟩ := taken a List.mem_cons_self ha
      simp only [List.filter_cons, List.filterMap_cons, ha, found]
      show (a :: l.filter p).mapM strict = _
      rw [List.mapM_cons, here, rest]
      rfl

/-! ## Labels and nodes -/

/-- Reads a written label; both its ends are looked at if it has two. -/
def unquote (s : Text) : Except Failure Text := do
  let s := strip s
  if 2 ≤ s.length then
    let first ← item s 0
    let final ← last s
    let bare := if first = '"' ∧ final = '"' then s.tail.dropLast else s
    return strip (unescapeQuotes bare)
  else return strip (unescapeQuotes s)

/-- Only a text of two characters or more has two ends. -/
theorem dropOuterQuotes_cons_cons {c d e : Char} {r : Text} (he : (d :: r).getLast? = some e) :
    dropOuterQuotes (c :: d :: r) =
      if c = '"' ∧ e = '"' then (d :: r).dropLast else c :: d :: r := by
  by_cases opens : c = '"'
  · rw [opens, dropOuterQuotes, he]
    simp
  · have other : ¬ (c = '"' ∧ e = '"') := fun h => opens h.1
    rw [if_neg other]
    unfold dropOuterQuotes
    split
    · rename_i heq
      exact (opens (List.cons.inj heq).1).elim
    · rfl

theorem unquote_eq (s : Text) : unquote s = .ok (Drawbridge.unquote s) := by
  unfold unquote Drawbridge.unquote
  match strip s with
  | [] => rfl
  | [c] =>
    have bare : dropOuterQuotes [c] = [c] := by
      unfold dropOuterQuotes
      split
      · rename_i heq
        cases heq
      · rfl
    rw [bare]
    rfl
  | c :: d :: r =>
    obtain ⟨e, he⟩ : ∃ e, (d :: r).getLast? = some e :=
      Option.isSome_iff_exists.mp (List.getLast?_isSome.mpr (List.cons_ne_nil d r))
    have ends : (c :: d :: r).getLast? = some e := List.getLast?_cons_cons.trans he
    rw [dropOuterQuotes_cons_cons he, if_pos (by simp), item_ok rfl, last_ok ends]
    rfl

/-- Changes the node with a name, which has to be there. -/
def change (d : Draft) (id : Text) (f : DraftNode → DraftNode) : Except Failure Draft :=
  if d.nodes.any fun n => n.id = id then .ok (d.update id f) else .error (.general .key [.str id])

theorem change_touch (d : Draft) (id : Text) (groups : List Text) (f : DraftNode → DraftNode) :
    change (d.touch id groups) id f = .ok ((d.touch id groups).update id f) := by
  apply if_pos
  unfold Draft.touch
  split
  · rename_i known
    obtain ⟨n, hn, same⟩ := List.any_eq_true.mp known
    refine List.any_eq_true.mpr ⟨_, List.mem_map_of_mem hn, ?_⟩
    dsimp only
    rw [if_pos (of_decide_eq_true same)]
    split <;> exact same
  · simp

/-- Reads a node token. The label is as it was written. -/
def writtenToken? (s : Text) : Option NodeToken :=
  let id := s.takeWhile isIdentChar
  let r := s.dropWhile isIdentChar
  if id = [] then none
  else
    let shaped := (NodeToken.shapesAt r).findSome? fun (body, r) =>
      (NodeToken.styleAfter? r).map fun style => { id, body := some body, styleClass := style }
    shaped.or ((NodeToken.styleAfter? r).map fun style => ⟨id, none, style⟩)

def token (s : Text) : Except Failure (Option NodeToken) :=
  match writtenToken? s with
  | some ⟨id, some (shape, label), style⟩ => do
    let label ← unquote label
    return some ⟨id, some (shape, label), style⟩
  | t => .ok t

theorem token_eq (s : Text) : token s = .ok (NodeToken.read? s) := by
  have read : NodeToken.read? s = (writtenToken? s).map fun t =>
      { t with body := t.body.map (Prod.map id Drawbridge.unquote) } := by
    unfold NodeToken.read? writtenToken?
    dsimp only
    split <;> rfl
  rw [read]
  unfold token
  rcases writtenToken? s with _ | ⟨id, _ | ⟨shape, label⟩, style⟩
  · rfl
  · rfl
  · dsimp only
    rw [unquote_eq]
    rfl

/-- What a token tells about its node. -/
def applied (t : NodeToken) (n : DraftNode) : DraftNode :=
  let n :=
    match t.body with
    | some (shape, label) => { n with shape, label }
    | none => n
  match t.styleClass with
  | some c => { n with styleClass := c }
  | none => n

/-- Enters a node token as it stands in a line; gives the name of the node. -/
def addNode (d : Draft) (number : Nat) (groups : List Text) (s : Text) :
    Except Failure (Draft × Text) := do
  match ← token (strip s) with
  | some t =>
    let d ← change (d.touch t.id groups) t.id (applied t)
    return (d, t.id)
  | none => .error (.rejected (.badLine number s))

theorem addNode_eq (d : Draft) (number : Nat) (groups : List Text) (s : Text) :
    addNode d number groups s = rejecting (d.addTokenText number groups s) := by
  unfold addNode Draft.addTokenText
  rw [token_eq]
  cases NodeToken.read? (strip s) with
  | none => rfl
  | some t =>
    show (change (d.touch t.id groups) t.id (applied t) >>= fun d => pure (d, t.id)) = _
    rw [change_touch]
    rfl

end Strict

end Drawbridge
