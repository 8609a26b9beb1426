import Drawbridge.Proofs.Diagram.Rows
import Drawbridge.Proofs.Graph.Soundness

/-!
Written sequence diagrams, line by line. A message has its text behind the colon, up to the end of
the line, so that whatever it holds the message is read as it was meant
(`readStatement?_messageOf`). A sequence diagram is read whatever the graph, as what its messages
add up to (`sequenceDraft`, `readDiagram_sequenceLines`).
-/

namespace Drawbridge

/-! ## What is written -/

def messageOf (e : Edge) (tail : Text) : Text :=
  e.source ++ ("->>".toList ++ (e.target ++ ':' :: tail))

def messageText (e : Edge) : Text :=
  messageOf e (' ' :: e.label)

theorem sequenceLines_eq (g : Graph) :
    sequenceLines g =
      DiagramType.sequenceDiagram.name :: (g.edges.map messageText).map (indent ++ ·) := by
  rw [sequenceLines, List.map_map]
  refine congrArg _ (List.map_congr_left fun e _ => ?_)
  show _ = indent ++ (e.source ++ ("->>".toList ++ (e.target ++ (": ".toList ++ e.label))))
  simp only [List.append_assoc]

/-! ## Rows -/

theorem messageOf_eq (e : Edge) (tail : Text) :
    messageOf e tail = e.source ++ ("->>".toList ++ (e.target ++ [':'])) ++ tail := by
  simp [messageOf]

section Rows

variable {e : Edge} (source : IsName e.source) (target : IsName e.target)

include source

theorem messageOf_starts (tail : Text) :
    ∃ c r, messageOf e tail = c :: r ∧ isIdentChar c = true := by
  obtain ⟨c, r, hc, ident⟩ := source.starts
  exact ⟨c, _, by rw [messageOf, hc]; rfl, ident⟩

include target

theorem isInline_messageHead : IsInline (e.source ++ ("->>".toList ++ (e.target ++ [':']))) := by
  have arrow : IsInline "->>".toList := isInline_of_all (by decide)
  have colon : IsInline [':'] := isInline_of_all (by decide)
  exact source.isInline.append (arrow.append (target.isInline.append colon))

theorem isRow_messageText (label : IsTidy e.label) : IsRow (messageText e) := by
  have space : Unbroken [' '] := by
    unfold Unbroken
    decide
  refine ⟨?_, messageOf_starts source _⟩
  rw [messageText, messageOf_eq, ← List.singleton_append]
  exact (isInline_messageHead source target).unbroken.append (space.append label.unbroken)

theorem prepare_messageText :
    prepareForRendering (messageText e) =
      messageOf e (stripRight (' ' :: unmarked e.label)) := by
  have apart : unmarked (messageText e) = messageOf e (' ' :: unmarked e.label) := by
    rw [messageText, messageOf_eq,
      (isInline_messageHead source target).unmarked_append,
      unmarked_cons (by decide) (by decide), ← messageOf_eq]
  obtain ⟨c, r, hc, ident⟩ := messageOf_starts source (' ' :: unmarked e.label)
  have colon (tail : Text) : stripRight (':' :: tail) = ':' :: stripRight tail :=
    stripRight_cons_of_not_blank (by decide) tail
  have full : stripRight (':' :: ' ' :: unmarked e.label) ≠ [] := by
    rw [colon]
    exact List.cons_ne_nil _ _
  have head : messageOf e (' ' :: unmarked e.label) =
      e.source ++ ("->>".toList ++ e.target) ++ (':' :: ' ' :: unmarked e.label) := by
    simp [messageOf]
  rw [prepareForRendering_unmarked, apart, hc,
    strip_cons_of_not_blank (not_blank_of_isIdentChar ident), ← hc, head, stripRight_append full,
    colon]
  simp [messageOf]

end Rows

theorem isRow_messageTexts {g : Graph} (h : g.Sound) : ∀ s ∈ g.edges.map messageText, IsRow s := by
  intro s hs
  obtain ⟨e, he, rfl⟩ := List.mem_map.mp hs
  obtain ⟨source, target, label⟩ := h.edges e he
  exact isRow_messageText source target label

/-! ## Reading -/

namespace SequenceReader

theorem isIdentChar_inside {c : Char} (h : isIdentChar c = true) :
    isBlank c = false ∧ c ≠ ':' ∧ c ≠ '>' ∧ c ≠ '-' ∧ c ≠ '+' :=
  ⟨not_blank_of_isIdentChar h, ne_of_class h (by decide), ne_of_class h (by decide),
    ne_of_class h (by decide), ne_of_class h (by decide)⟩

theorem readMarkedTarget?_name {target : Text} (ht : IsName target) (tail : Text) :
    readMarkedTarget? (target ++ ':' :: tail) = some (target, strip tail) := by
  have inside : ∀ d ∈ target, (!isBlank d && d ≠ ':') = true := by
    intro d hd
    obtain ⟨solid, colon, -⟩ := isIdentChar_inside (ht.ident d hd)
    simp [solid, colon]
  have colon : stripLeft (':' :: tail) = ':' :: tail := List.dropWhile_cons_of_neg (by decide)
  have read : readTarget? (target ++ ':' :: tail) = some (target, strip tail) := by
    unfold readTarget?
    dsimp only
    rw [takeWhile_piece inside (by decide), dropWhile_piece inside (by decide), if_neg ht.ne_nil,
      colon]
    rfl
  obtain ⟨c, r, hc, ident⟩ := ht.starts
  obtain ⟨solid, -, -, minus, plus⟩ := isIdentChar_inside ident
  have start : stripLeft (target ++ ':' :: tail) = target ++ ':' :: tail := by
    rw [hc]
    exact List.dropWhile_cons_of_neg (by simp [solid])
  have inactive : ¬ (c = '+' || c = '-') = true := by simp [plus, minus]
  rw [readMarkedTarget?, start]
  rw [hc] at read ⊢
  show (if _ then _ else none).or _ = _
  rw [if_neg inactive]
  exact read

theorem readMessage?_messageOf {e : Edge} (hs : IsName e.source) (ht : IsName e.target)
    (tail : Text) :
    readMessage? (messageOf e tail) = some (.message e.source e.target (strip tail)) := by
  have inside : ∀ d ∈ e.source, (!isBlank d && d ≠ ':' && d ≠ '>' && d ≠ '-') = true := by
    intro d hd
    obtain ⟨solid, colon, close, minus, -⟩ := isIdentChar_inside (hs.ident d hd)
    simp [solid, colon, close, minus]
  have start (s : Text) : stripLeft ('-' :: s) = '-' :: s :=
    List.dropWhile_cons_of_neg (by decide)
  have longer (s : Text) : afterPrefix? "-->>".toList ("->>".toList ++ s) = none := (rfl)
  have arrow : (arrows.findSome? fun a => (afterPrefix? a ("->>".toList ++
      (e.target ++ ':' :: tail))).bind readMarkedTarget?) = some (e.target, strip tail) := by
    rw [arrows, List.findSome?_cons, longer, Option.bind_none, List.findSome?_cons,
      afterPrefix?_append, Option.bind_some, readMarkedTarget?_name ht]
  have line : messageOf e tail = e.source ++ '-' :: (">>".toList ++ (e.target ++ ':' :: tail)) :=
    rfl
  unfold readMessage?
  dsimp only
  rw [line, takeWhile_piece inside (by decide), dropWhile_piece inside (by decide),
    if_neg hs.ne_nil, start]
  exact congrArg _ arrow

/-- **A message is read by its ends and its text.** -/
theorem readStatement?_messageOf {e : Edge} (hs : IsName e.source) (ht : IsName e.target)
    (tail : Text) :
    readStatement? (messageOf e tail) = some (.message e.source e.target (strip tail)) := by
  obtain ⟨c, r, hc, capital⟩ := hs.capital
  have other : ∀ d, d.isUpper = false → d ≠ c := by
    rintro d hd rfl
    rw [hd] at capital
    cases capital
  have unnamed : readParticipant? (messageOf e tail) = none := by
    have participant : afterPrefix? "participant".toList (messageOf e tail) = none := by
      rw [messageOf, hc]
      exact if_neg (other 'p' (by decide))
    have actor : afterPrefix? "actor".toList (messageOf e tail) = none := by
      rw [messageOf, hc]
      exact if_neg (other 'a' (by decide))
    rw [readParticipant?, participant, actor]
    rfl
  rw [readStatement?, unnamed, readMessage?_messageOf hs ht]
  rfl

def addMessage (d : Draft) (e : Edge) (label : Text) : Draft :=
  ((d.touch e.source []).touch e.target []).addEdge e.source e.target label

theorem addLine_messageText {e : Edge} (source : IsName e.source) (target : IsName e.target)
    (d : Draft) (k : Nat) :
    addLine d k (prepareForRendering (messageText e)) =
      .ok (addMessage d e (strip (unmarked e.label))) := by
  have trimmed : strip (stripRight (' ' :: unmarked e.label)) = strip (unmarked e.label) := by
    rw [strip_stripRight, strip_cons_blank (by decide)]
  rw [prepare_messageText source target, addLine, readStatement?_messageOf source target, trimmed]
  rfl

/-- The messages of a graph are taken in, one by one. -/
theorem reads_messages {es : List Edge} (h : ∀ e ∈ es, IsName e.source ∧ IsName e.target)
    (d : Draft) :
    Reads addLine d (es.map fun e => prepareForRendering (messageText e))
      (es.foldl (fun d e => addMessage d e (strip (unmarked e.label))) d) := by
  induction es generalizing d with
  | nil => exact .nil d
  | cons e es ih =>
    obtain ⟨source, target⟩ := h e List.mem_cons_self
    exact .cons (addLine_messageText source target d)
      (ih (fun e' he => h e' (List.mem_cons_of_mem e he)) _)

end SequenceReader

theorem diagramLines_sequenceLines {g : Graph} (h : g.Sound) :
    diagramLines (prepareForRendering (joinLines (sequenceLines g))) =
      DiagramType.sequenceDiagram.name ::
        (g.edges.map fun e => prepareForRendering (messageText e)) := by
  have header := DiagramType.sequenceDiagram.isLine_name
  have rows := Rows.level 1 (isRow_messageTexts h)
  rw [indentBy_one] at rows
  rw [sequenceLines_eq, diagramLines_rows header.isRow rows, List.map_cons, header.prepare_eq,
    List.map_map]
  rfl

def sequenceDraft (g : Graph) : Draft :=
  g.edges.foldl (fun d e => SequenceReader.addMessage d e (strip (unmarked e.label))) {}

/-- **A sequence diagram is read, whatever the graph.** -/
theorem readDiagram_sequenceLines {g : Graph} (h : g.Sound) :
    readDiagram (joinLines (sequenceLines g)) = .ok (sequenceDraft g) := by
  have run := SequenceReader.reads_messages
    (fun e he => ⟨(h.edges e he).1, (h.edges e he).2.1⟩) {}
  have read : SequenceReader.read (g.edges.map fun e => prepareForRendering (messageText e)) =
      .ok (sequenceDraft g) := run 2
  have keyword : (words DiagramType.sequenceDiagram.name).headD [] =
      "sequenceDiagram".toList := by
    decide
  unfold readDiagram
  rw [diagramLines_sequenceLines h]
  simp only [keyword]
  exact read

end Drawbridge
