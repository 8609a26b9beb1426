import Drawbridge.Proofs.Diagram.LineNumbers

/-!
The bodies of a class diagram. A line that declares a class and ends in a brace opens a body, in
which every line is passed over up to the first that is a closing brace and nothing else. The reader
is a machine with two states, and `Bodies` cuts its lines accordingly: into the lines outside of
bodies and the bodies, the last of which may be left open.

* `Bodies.exists_cut`, `Bodies.unique`: any lines are cut in one way;
* `Bodies.takeIn_cases`: only the lines outside of bodies can stop the reader, and when it is
  through, it knows whether a body is open;
* `Bodies.edges_of_read`: the edges are the relations outside of bodies, in their order;
* `untruncated_iff`: the reader does not look at what it knows, so that a body which is left open
  swallows the rest of the diagram.
-/

namespace Drawbridge.ClassReader

/-- The line declares a class and opens its body. -/
def Opens (l : Text) : Prop :=
  ∃ id label, readStatement? l = some (.declare id label true)

theorem opens_iff {l : Text} {c : Statement} (read : readStatement? l = some c) :
    Opens l ↔ c.opensBody = true := by
  constructor
  · rintro ⟨id, label, declared⟩
    cases read.symm.trans declared
    rfl
  · intro opened
    cases c with
    | declare id label opens =>
      cases opened
      exact ⟨id, label, read⟩
    | relate source target label => cases opened
    | skip => cases opened

theorem Opens.read_ne_none {l : Text} (opens : Opens l) : readStatement? l ≠ none := by
  obtain ⟨id, label, read⟩ := opens
  rw [read]
  exact Option.some_ne_none _

/-- The edge that a line stands for, if it is a relation. -/
def relationOf? (l : Text) : Option Edge :=
  match readStatement? l with
  | some (.relate source target label) => some ⟨source, target, label⟩
  | _ => none

/--
Lines cut into those outside of bodies, the opening lines among them, and the bodies. The flag tells
whether the last body is left open.
-/
inductive Bodies : List Text → List Text → Bool → Prop
  | nil : Bodies [] [] false
  | line {l : Text} {ls out : List Text} {left : Bool} (plain : ¬ Opens l)
      (rest : Bodies ls out left) : Bodies (l :: ls) (l :: out) left
  | closed {l : Text} {members ls out : List Text} {left : Bool} (opens : Opens l)
      (inside : ['}'] ∉ members) (rest : Bodies ls out left) :
      Bodies (l :: (members ++ ['}'] :: ls)) (l :: out) left
  | cutOff {l : Text} {members : List Text} (opens : Opens l) (inside : ['}'] ∉ members) :
      Bodies (l :: members) [l] true

/-! ## Cutting -/

/-- Lines are cut at the first closing brace in one way. -/
theorem cut_unique {members members' ls ls' : List Text} (inside : ['}'] ∉ members)
    (inside' : ['}'] ∉ members') (same : members ++ ['}'] :: ls = members' ++ ['}'] :: ls') :
    members = members' ∧ ls = ls' := by
  rcases List.append_eq_append_iff.mp same with ⟨more, rfl, behind⟩ | ⟨more, rfl, behind⟩
  · cases more with
    | nil =>
      cases behind
      exact ⟨(List.append_nil members).symm, rfl⟩
    | cons l more =>
      cases behind
      simp at inside'
  · cases more with
    | nil =>
      cases behind
      exact ⟨List.append_nil members', rfl⟩
    | cons l more =>
      cases behind
      simp at inside

namespace Bodies

variable {ls out : List Text} {left : Bool}

/-- Any lines can be cut. Inside of a body, its end is looked for before. -/
theorem exists_cut (ls : List Text) : ∃ out left, Bodies ls out left := by
  suffices both : (∃ out left, Bodies ls out left) ∧ (['}'] ∉ ls ∨ ∃ members ls' out left,
      ls = members ++ ['}'] :: ls' ∧ ['}'] ∉ members ∧ Bodies ls' out left) from both.1
  induction ls with
  | nil => exact ⟨⟨[], false, .nil⟩, .inl List.not_mem_nil⟩
  | cons l ls ih =>
    obtain ⟨⟨out, left, cut⟩, behind⟩ := ih
    constructor
    · by_cases opens : Opens l
      · rcases behind with inside | ⟨members, ls', out', left', rfl, inside, rest⟩
        · exact ⟨_, _, .cutOff opens inside⟩
        · exact ⟨_, _, .closed opens inside rest⟩
      · exact ⟨_, _, .line opens cut⟩
    · by_cases close : l = ['}']
      · exact .inr ⟨[], ls, out, left, by rw [close]; rfl, List.not_mem_nil, cut⟩
      · rcases behind with inside | ⟨members, ls', out', left', rfl, inside, rest⟩
        · exact .inl (List.not_mem_cons_of_ne_of_not_mem (Ne.symm close) inside)
        · exact .inr ⟨l :: members, ls', out', left', rfl,
            List.not_mem_cons_of_ne_of_not_mem (Ne.symm close) inside, rest⟩

theorem unique {out' : List Text} {left' : Bool} (h : Bodies ls out left)
    (h' : Bodies ls out' left') : out' = out ∧ left' = left := by
  induction h generalizing out' left' with
  | nil =>
    cases h'
    exact ⟨rfl, rfl⟩
  | @line l ls out left plain rest ih =>
    cases h' with
    | line _ rest' =>
      obtain ⟨rfl, rfl⟩ := ih rest'
      exact ⟨rfl, rfl⟩
    | closed opens => exact (plain opens).elim
    | cutOff opens => exact (plain opens).elim
  | @closed l members ls out left opens inside rest ih =>
    generalize whole : l :: (members ++ ['}'] :: ls) = all at h'
    cases h' with
    | nil => cases whole
    | line plain =>
      cases whole
      exact (plain opens).elim
    | closed _ inside' rest' =>
      obtain ⟨rfl, same⟩ := List.cons.inj whole
      obtain ⟨-, rfl⟩ := cut_unique inside inside' same
      obtain ⟨rfl, rfl⟩ := ih rest'
      exact ⟨rfl, rfl⟩
    | cutOff _ inside' =>
      obtain ⟨-, rfl⟩ := List.cons.inj whole
      simp at inside'
  | @cutOff l members opens inside =>
    cases h' with
    | line plain => exact (plain opens).elim
    | closed _ _ _ => simp at inside
    | cutOff => exact ⟨rfl, rfl⟩

end Bodies

/-! ## Reading -/

theorem addLine_of_read {st : State} {c : Statement} {l : Text} (outside : st.inBody = false)
    (read : readStatement? l = some c) (k : Nat) : st.addLine k l = .ok (st.add c) := by
  simp [State.addLine, outside, read]

theorem addLine_of_unread {st : State} {l : Text} (outside : st.inBody = false)
    (unread : readStatement? l = none) (k : Nat) : st.addLine k l = .error (.badLine k l) := by
  simp [State.addLine, outside, unread]

theorem takeIn_opening {st : State} {l : Text} (outside : st.inBody = false) (opens : Opens l)
    (k : Nat) (ls : List Text) : ∃ st₁ : State, st₁.inBody = true ∧
      takeIn State.addLine k st (l :: ls) = takeIn State.addLine (k + 1) st₁ ls := by
  obtain ⟨id, label, read⟩ := opens
  refine ⟨st.add (.declare id label true), State.add_inBody outside _, ?_⟩
  rw [takeIn_cons, addLine_of_read outside read]
  rfl

theorem takeIn_members {st : State} (inBody : st.inBody = true) {members : List Text}
    (inside : ['}'] ∉ members) (k : Nat) (ls : List Text) :
    takeIn State.addLine k st (members ++ ls) =
      takeIn State.addLine (k + members.length) st ls := by
  induction members generalizing k with
  | nil => rfl
  | cons l members ih =>
    obtain ⟨other, inside⟩ := List.ne_and_not_mem_of_not_mem_cons inside
    have passed : st.addLine k l = .ok st := by
      rw [State.addLine, if_pos inBody, decide_eq_true other.symm, ← inBody]
    rw [List.cons_append, takeIn_cons, passed]
    show takeIn State.addLine (k + 1) st (members ++ ls) = _
    rw [ih inside, List.length_cons]
    congr 1
    omega

theorem takeIn_close {st : State} (inBody : st.inBody = true) (k : Nat) (ls : List Text) :
    takeIn State.addLine k st (['}'] :: ls) =
      takeIn State.addLine (k + 1) { st with inBody := false } ls := by
  rw [takeIn_cons, State.addLine, if_pos inBody]
  rfl

namespace Bodies

variable {ls out : List Text} {left : Bool}

/--
**Only the lines outside of bodies can stop the reader.** When it is through, a body is open for it
just if one is left open.
-/
theorem takeIn_cases (h : Bodies ls out left) {st : State} (outside : st.inBody = false) (k : Nat) :
    (∃ st', takeIn State.addLine k st ls = .ok st' ∧ st'.inBody = left ∧
      ∀ l ∈ out, readStatement? l ≠ none) ∨
    (∃ r, takeIn State.addLine k st ls = .error r) ∧ ∃ l ∈ out, readStatement? l = none := by
  induction h generalizing st k with
  | nil => exact .inl ⟨st, rfl, outside, nofun⟩
  | @line l ls out left plain rest ih =>
    rw [takeIn_cons]
    cases read : readStatement? l with
    | none =>
      rw [addLine_of_unread outside read]
      exact .inr ⟨⟨_, rfl⟩, l, List.mem_cons_self, read⟩
    | some c =>
      rw [addLine_of_read outside read]
      have still : (st.add c).inBody = false := by
        rw [State.add_inBody outside]
        exact eq_false_of_ne_true (mt (opens_iff read).mpr plain)
      rcases ih still (k + 1) with ⟨st', run, inBody, filled⟩ | ⟨fails, l', hl', bad⟩
      · have here : readStatement? l ≠ none := by rw [read]; exact Option.some_ne_none c
        exact .inl ⟨st', run, inBody, List.forall_mem_cons.mpr ⟨here, filled⟩⟩
      · exact .inr ⟨fails, l', List.mem_cons_of_mem l hl', bad⟩
  | @closed l members ls out left opens inside rest ih =>
    obtain ⟨st₁, inBody, first⟩ := takeIn_opening outside opens k (members ++ ['}'] :: ls)
    rw [first, takeIn_members inBody inside, takeIn_close inBody]
    have closed : ({ st₁ with inBody := false } : State).inBody = false := rfl
    rcases ih closed (k + 1 + members.length + 1) with
      ⟨st', run, inBody', filled⟩ | ⟨fails, l', hl', bad⟩
    · exact .inl ⟨st', run, inBody', List.forall_mem_cons.mpr ⟨opens.read_ne_none, filled⟩⟩
    · exact .inr ⟨fails, l', List.mem_cons_of_mem l hl', bad⟩
  | @cutOff l members opens inside =>
    obtain ⟨st₁, inBody, first⟩ := takeIn_opening outside opens k members
    have behind := takeIn_members inBody inside (k + 1) []
    rw [List.append_nil] at behind
    exact .inl ⟨st₁, first.trans behind, inBody, by simpa using opens.read_ne_none⟩

theorem statements_members {members : List Text} (inside : ['}'] ∉ members) (ls : List Text) :
    statements true (members ++ ls) = statements true ls := by
  induction members with
  | nil => rfl
  | cons l members ih =>
    obtain ⟨other, inside⟩ := List.ne_and_not_mem_of_not_mem_cons inside
    rw [List.cons_append, statements, if_pos rfl, decide_eq_true other.symm, ih inside]

theorem statements_eq (h : Bodies ls out left) :
    statements false ls = out.filterMap readStatement? := by
  induction h with
  | nil => rfl
  | @line l ls out left plain rest ih =>
    rw [statements, if_neg Bool.false_ne_true, List.filterMap_cons]
    cases read : readStatement? l with
    | none => exact ih
    | some c =>
      have still : c.opensBody = false := eq_false_of_ne_true (mt (opens_iff read).mpr plain)
      dsimp only
      rw [still, ih]
  | @closed l members ls out left opens inside rest ih =>
    obtain ⟨id, label, read⟩ := opens
    rw [statements, if_neg Bool.false_ne_true, List.filterMap_cons, read]
    show _ :: statements true (members ++ ['}'] :: ls) = _
    rw [statements_members inside, ← ih]
    rfl
  | @cutOff l members opens inside =>
    obtain ⟨id, label, read⟩ := opens
    rw [statements, if_neg Bool.false_ne_true, List.filterMap_cons, read]
    show _ :: statements true members = _
    rw [← List.append_nil members, statements_members inside]
    rfl

theorem edges_filterMap (ls : List Text) :
    ((ls.filterMap readStatement?).map Statement.script).flatMap Script.edges =
      ls.filterMap relationOf? := by
  induction ls with
  | nil => rfl
  | cons l ls ih =>
    rw [List.filterMap_cons, List.filterMap_cons, relationOf?]
    cases readStatement? l with
    | none => exact ih
    | some c =>
      cases c with
      | declare id label opens => exact ih
      | relate source target label => exact congrArg (_ :: ·) ih
      | skip => exact ih

/-- **The edges are the relations outside of bodies, in their order.** -/
theorem edges_of_read (h : Bodies ls out left) {d : Draft} (read : ClassReader.read ls = .ok d) :
    d.edges = out.filterMap relationOf? := by
  obtain ⟨ms, -, recorded⟩ := (grows_of_read read).records
  rw [recorded.edges, h.statements_eq]
  exact edges_filterMap out

end Bodies

/-! ## Class diagrams -/

/--
No body swallows the end of the diagram: with a body left open the text is rejected, and what is
read of any other one has the relations outside of bodies for its edges, in their order.
-/
def Untruncated (s : Text) (ls : List Text) : Prop :=
  ∀ out left, Bodies ls out left →
    (left = true → ∃ e, renderDiagram s = .error e) ∧
    ∀ d, readDiagram s = .ok d → left = false ∧ d.edges = out.filterMap relationOf?

/--
**A class diagram is cut off silently exactly if its last body is left open.** Its lines are cut in
one way into bodies and the lines outside of them. It is rendered just if all the lines outside can
be read, and then its edges are the relations among these. So nothing is swallowed if every body is
closed, or if the text is rejected for a line that cannot be read; otherwise the end of the diagram
is lost without a rejection.
-/
theorem untruncated_iff {s header : Text} {ls : List Text}
    (seen : diagramLines (prepareForRendering s) = header :: ls)
    (kind : (words header).headD [] = "classDiagram".toList) :
    ∃ out left, Bodies ls out left ∧
      (∀ out' left', Bodies ls out' left' → out' = out ∧ left' = left) ∧
      ((∃ r, renderDiagram s = .ok r) ↔ ∀ l ∈ out, readStatement? l ≠ none) ∧
      (∀ d, readDiagram s = .ok d → d.edges = out.filterMap relationOf?) ∧
      (Untruncated s ls ↔ left = false ∨ ∃ l ∈ out, readStatement? l = none) := by
  obtain ⟨out, left, cut⟩ := Bodies.exists_cut ls
  have unique : ∀ out' left', Bodies ls out' left' → out' = out ∧ left' = left :=
    fun _ _ => cut.unique
  have reads : readDiagram s = ClassReader.read ls := by
    unfold readDiagram
    rw [seen]
    dsimp only
    rw [kind]
    rfl
  have edges : ∀ d, readDiagram s = .ok d → d.edges = out.filterMap relationOf? := by
    rw [reads]
    exact fun d => cut.edges_of_read
  refine ⟨out, left, cut, unique, ?_⟩
  have outside : ({} : State).inBody = false := rfl
  rcases cut.takeIn_cases outside 2 with ⟨st, run, -, filled⟩ | ⟨⟨e, fails⟩, l, hl, bad⟩
  · have read : readDiagram s = .ok st.draft := by
      rw [reads]
      exact congrArg (· >>= fun st : State => Except.ok st.draft) run
    have rendered : renderDiagram s = .ok (Layout.render st.draft) := by
      rw [renderDiagram, read]
      rfl
    refine ⟨iff_of_true ⟨_, rendered⟩ filled, edges, ?_⟩
    constructor
    · exact fun whole => .inl ((whole out left cut).2 _ read).1
    · rintro (closed | ⟨l, hl, bad⟩) out' left' cut'
      · obtain ⟨rfl, rfl⟩ := unique out' left' cut'
        rw [closed]
        exact ⟨fun opened => absurd opened Bool.false_ne_true,
          fun d read => ⟨rfl, edges d read⟩⟩
      · exact (filled l hl bad).elim
  · have fails : readDiagram s = .error e := by
      rw [reads]
      exact congrArg (· >>= fun st : State => Except.ok st.draft) fails
    have refused : renderDiagram s = .error e := by
      rw [renderDiagram, fails]
      rfl
    refine ⟨iff_of_false ?_ fun filled => filled l hl bad, edges, ?_⟩
    · rintro ⟨r, rendered⟩
      cases refused.symm.trans rendered
    · refine iff_of_true (fun out' left' _ => ⟨fun _ => ⟨e, refused⟩, fun d read => ?_⟩)
        (.inr ⟨l, hl, bad⟩)
      cases fails.symm.trans read

/-- A class with a body, in which a line looks like a relation, and a relation behind it. -/
def bodiedText : Text :=
  ("classDiagram\nclass A[\"Animal\"] \x7b\n  +name: String\n  B <|-- C\n\x7d\n" ++
    "A <|-- D : is").toList

def bodiedLines : List Text :=
  ["class A[\"Animal\"] \x7b", "+name: String", "B <|-- C", "\x7d", "A <|-- D : is"].map
    String.toList

/-- Its edge is the relation outside of the body. -/
theorem untruncated_iff_bodiedText :
    diagramLines (prepareForRendering bodiedText) = "classDiagram".toList :: bodiedLines ∧
      Untruncated bodiedText bodiedLines ∧ (∃ r, renderDiagram bodiedText = .ok r) ∧
      ∀ d, readDiagram bodiedText = .ok d → d.edges = [⟨['A'], ['D'], "is".toList⟩] := by
  have seen : diagramLines (prepareForRendering bodiedText) =
      "classDiagram".toList :: bodiedLines := by
    decide +kernel
  have opens : Opens "class A[\"Animal\"] \x7b".toList :=
    ⟨['A'], some "Animal".toList, by decide +kernel⟩
  have relation : readStatement? "A <|-- D : is".toList =
      some (.relate ['A'] ['D'] "is".toList) := by
    decide +kernel
  have plain : ¬ Opens "A <|-- D : is".toList := mt (opens_iff relation).mp Bool.false_ne_true
  have inside : ['}'] ∉ ["+name: String".toList, "B <|-- C".toList] := by decide
  have cut : Bodies bodiedLines
      ["class A[\"Animal\"] \x7b".toList, "A <|-- D : is".toList] false :=
    .closed opens inside (.line plain .nil)
  obtain ⟨out, left, -, unique, accepted, edges, whole⟩ := untruncated_iff seen (by decide +kernel)
  obtain ⟨rfl, rfl⟩ := unique _ _ cut
  exact ⟨seen, whole.mpr (.inl rfl), accepted.mpr (by decide +kernel), fun d read =>
    (edges d read).trans (by decide +kernel)⟩

/-- A class diagram that ends in the middle of a body, as an answer that was broken off does. -/
def brokenOffText : Text :=
  "classDiagram\nclass A \x7b\nB <|-- C".toList

/-- **A relation that is lost.** The body is left open, and yet the text is rendered. -/
theorem relation_swallowed :
    let ls := ["class A \x7b".toList, "B <|-- C".toList]
    diagramLines (prepareForRendering brokenOffText) = "classDiagram".toList :: ls ∧
      relationOf? "B <|-- C".toList = some ⟨['B'], ['C'], []⟩ ∧
      Bodies ls ["class A \x7b".toList] true ∧ (∃ r, renderDiagram brokenOffText = .ok r) ∧
      (readDiagram brokenOffText).toOption.map Draft.edges = some [] ∧
      ¬ Untruncated brokenOffText ls := by
  intro ls
  have cut : Bodies ls ["class A \x7b".toList] true :=
    .cutOff ⟨['A'], none, by decide +kernel⟩ (by decide)
  have accepted : (renderDiagram brokenOffText).toOption.isSome = true := by decide +kernel
  obtain ⟨r, hr⟩ := Option.isSome_iff_exists.mp accepted
  have rendered : renderDiagram brokenOffText = .ok r := eq_ok_of_toOption hr
  refine ⟨by decide +kernel, by decide +kernel, cut, ⟨r, rendered⟩, by decide +kernel, ?_⟩
  intro whole
  obtain ⟨e, refused⟩ := (whole _ _ cut).1 rfl
  cases rendered.symm.trans refused

end Drawbridge.ClassReader
