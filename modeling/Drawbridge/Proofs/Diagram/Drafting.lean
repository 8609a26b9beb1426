import Drawbridge.Proofs.Diagram.FlowchartReader
import Drawbridge.Proofs.Graph.Blocks

/-!
What a reader makes of the lines of a diagram. A line mentions nodes and may add edges between them;
`diagramScript` lists all of these in order. A draft records mentions and edges if its nodes are
those that are mentioned, in the order in which they first are, each in the subgraphs around its
first mention inside any, and if its edges are these (`Draft.Records`). Every statement adds its
script to the record (`Draft.Grows`), and so do all the lines of a diagram (`readDiagram_records`).
-/

namespace Drawbridge

/-! ## Mentions -/

/-- A mention of a node inside some subgraphs, outermost first. -/
structure Mention where
  id : Text
  groups : List Text
  deriving DecidableEq, Repr

/-- Nodes that are mentioned one after the other inside some subgraphs. -/
def mentionsIn (groups ids : List Text) : List Mention :=
  ids.map fun id => ⟨id, groups⟩

theorem mentionsIn_ids (groups ids : List Text) : (mentionsIn groups ids).map (·.id) = ids := by
  rw [mentionsIn, List.map_map]
  exact List.map_id ids

theorem mentionsIn_cons (groups : List Text) (id : Text) (ids : List Text) :
    mentionsIn groups (id :: ids) = ⟨id, groups⟩ :: mentionsIn groups ids := (rfl)

/-- The subgraphs around the first mention of a node inside any. -/
def groupsAt (ms : List Mention) (id : Text) : List Text :=
  ((ms.find? fun m => m.id = id && m.groups ≠ []).map (·.groups)).getD []

theorem groupsAt_concat (ms : List Mention) (m : Mention) (id : Text) :
    groupsAt (ms ++ [m]) id =
      if groupsAt ms id = [] ∧ m.id = id then m.groups else groupsAt ms id := by
  unfold groupsAt
  rw [List.find?_append]
  cases h : ms.find? fun m => m.id = id && m.groups ≠ [] with
  | some first =>
    have inside : first.groups ≠ [] := by
      have found := List.find?_some h
      simpa using (Bool.and_eq_true_iff.mp found).2
    rw [if_neg fun none => inside none.1]
    rfl
  | none =>
    by_cases same : m.id = id <;> by_cases outside : m.groups = [] <;> simp [same, outside]

theorem groupsAt_of_not_mem {ms : List Mention} {id : Text} (h : id ∉ ms.map (·.id)) :
    groupsAt ms id = [] := by
  have none : ms.find? (fun m => m.id = id && m.groups ≠ []) = none := by
    rw [List.find?_eq_none]
    intro m hm found
    have same : m.id = id := of_decide_eq_true (Bool.and_eq_true_iff.mp found).1
    exact h (same ▸ List.mem_map_of_mem hm)
  rw [groupsAt, none]
  rfl

/-! ## Drafts -/

/-- A draft of these mentions and edges. -/
structure Draft.Records (d : Draft) (ms : List Mention) (es : List Edge) : Prop where
  nodes : d.nodes.map (·.id) = (ms.map (·.id)).eraseDups
  groups : ∀ n ∈ d.nodes, n.groups = groupsAt ms n.id
  edges : d.edges = es
  ends : ∀ e ∈ es, e.source ∈ ms.map (·.id) ∧ e.target ∈ ms.map (·.id)

namespace Draft.Records

variable {d : Draft} {ms : List Mention} {es : List Edge}

theorem empty : Draft.Records {} [] [] :=
  ⟨rfl, nofun, rfl, nofun⟩

theorem mem_nodes (h : d.Records ms es) {id : Text} :
    id ∈ d.nodes.map (·.id) ↔ id ∈ ms.map (·.id) := by
  rw [h.nodes, List.mem_eraseDups]

theorem known_ends (h : d.Records ms es) {e : Edge} (he : e ∈ d.edges) :
    e.source ∈ d.nodes.map (·.id) ∧ e.target ∈ d.nodes.map (·.id) := by
  rw [h.edges] at he
  rw [h.mem_nodes, h.mem_nodes]
  exact h.ends e he

/-- What a draft records does not depend on its styles and titles. -/
theorem of_same (h : d.Records ms es) {d' : Draft} (nodes : d'.nodes = d.nodes)
    (edges : d'.edges = d.edges) : d'.Records ms es :=
  ⟨nodes ▸ h.nodes, nodes ▸ h.groups, edges ▸ h.edges, h.ends⟩

/-- Changing a node leaves the record as it is, if the node keeps its name and its groups. -/
theorem update (h : d.Records ms es) (id : Text) {f : DraftNode → DraftNode}
    (kept : ∀ n, (f n).id = n.id ∧ (f n).groups = n.groups) : (d.update id f).Records ms es := by
  have ids : (d.update id f).nodes.map (·.id) = d.nodes.map (·.id) := by
    show (d.nodes.map _).map _ = _
    rw [List.map_map]
    apply List.map_congr_left
    intro n _
    show (if n.id = id then f n else n).id = n.id
    split
    · exact (kept n).1
    · rfl
  refine ⟨ids.trans h.nodes, ?_, h.edges, h.ends⟩
  intro n' hn'
  obtain ⟨n, hn, rfl⟩ := List.mem_map.mp hn'
  split
  · rw [(kept n).1, (kept n).2]
    exact h.groups n hn
  · exact h.groups n hn

theorem ends_concat (h : d.Records ms es) (m : Mention) : ∀ e ∈ es,
    e.source ∈ (ms ++ [m]).map (·.id) ∧ e.target ∈ (ms ++ [m]).map (·.id) := by
  intro e he
  rw [List.map_append]
  obtain ⟨source, target⟩ := h.ends e he
  exact ⟨List.mem_append_left _ source, List.mem_append_left _ target⟩

theorem touch_known (h : d.Records ms es) {id : Text} (known : id ∈ d.nodes.map (·.id))
    (groups : List Text) : (d.touch id groups).Records (ms ++ [⟨id, groups⟩]) es := by
  have found : (d.nodes.any fun n => n.id = id) = true := by
    obtain ⟨n, hn, same⟩ := List.mem_map.mp known
    exact List.any_eq_true.mpr ⟨n, hn, decide_eq_true same⟩
  rw [Draft.touch, if_pos found]
  refine ⟨?_, ?_, h.edges, h.ends_concat _⟩
  · rw [List.map_append]
    show _ = (_ ++ [id]).eraseDups
    rw [eraseDups_concat, if_pos (h.mem_nodes.mp known), ← h.nodes]
    show (d.nodes.map _).map _ = _
    rw [List.map_map]
    apply List.map_congr_left
    intro n _
    show (if n.id = id then (if n.groups = [] then { n with groups } else n) else n).id = n.id
    split
    · split <;> rfl
    · rfl
  · intro n' hn'
    obtain ⟨n, hn, rfl⟩ := List.mem_map.mp hn'
    have before := h.groups n hn
    rw [groupsAt_concat]
    rcases eq_or_ne id n.id with rfl | other
    · by_cases outside : n.groups = [] <;> simp [outside, ← before]
    · simp [other, other.symm, before]

theorem touch_new (h : d.Records ms es) {id : Text} (new : id ∉ d.nodes.map (·.id))
    (groups : List Text) : (d.touch id groups).Records (ms ++ [⟨id, groups⟩]) es := by
  have unmentioned : id ∉ ms.map (·.id) := fun hm => new (h.mem_nodes.mpr hm)
  rw [Draft.touch_new new]
  refine ⟨?_, ?_, h.edges, h.ends_concat _⟩
  · rw [List.map_append, List.map_append, h.nodes]
    exact ((eraseDups_concat _ _).trans (if_neg unmentioned)).symm
  · intro n hn
    rw [groupsAt_concat]
    rcases List.mem_append.mp hn with old | last
    · have other : id ≠ n.id := fun same => new (same ▸ List.mem_map_of_mem old)
      rw [if_neg fun this => other this.2]
      exact h.groups n old
    · rw [List.mem_singleton.mp last, if_pos ⟨groupsAt_of_not_mem unmentioned, rfl⟩]

/-- **A mention is recorded.** Of a known node it may tell the groups, and a new node comes last. -/
theorem touch (h : d.Records ms es) (id : Text) (groups : List Text) :
    (d.touch id groups).Records (ms ++ [⟨id, groups⟩]) es := by
  by_cases known : id ∈ d.nodes.map (·.id)
  · exact h.touch_known known groups
  · exact h.touch_new known groups

/-- **An edge between nodes that were mentioned is recorded.** -/
theorem addEdge (h : d.Records ms es) {source target : Text} (hs : source ∈ ms.map (·.id))
    (ht : target ∈ ms.map (·.id)) (label : Text) :
    (d.addEdge source target label).Records ms (es ++ [⟨source, target, label⟩]) := by
  refine ⟨h.nodes, h.groups, ?_, ?_⟩
  · rw [← h.edges]
    rfl
  · intro e he
    rcases List.mem_append.mp he with he | he
    · exact h.ends e he
    · obtain rfl := List.mem_singleton.mp he
      exact ⟨hs, ht⟩

/-- An edge is recorded with its two ends, as class and sequence diagrams have it. -/
theorem touch_touch_addEdge (h : d.Records ms es) (source target label : Text) :
    (((d.touch source []).touch target []).addEdge source target label).Records
      (ms ++ mentionsIn [] [source, target]) (es ++ [⟨source, target, label⟩]) := by
  have both := (h.touch source []).touch target []
  rw [List.append_assoc] at both
  refine both.addEdge ?_ ?_ label <;> simp

end Draft.Records

/-! ## Scripts -/

/-- What the lines of a diagram amount to: the nodes they mention and the edges they add. -/
structure Script where
  mentions : List Text := []
  edges : List Edge := []
  deriving DecidableEq, Repr

instance : Append Script where
  append a b := { mentions := a.mentions ++ b.mentions, edges := a.edges ++ b.edges }

def Script.join (scripts : List Script) : Script where
  mentions := scripts.flatMap Script.mentions
  edges := scripts.flatMap Script.edges

/-- A draft becomes another one that records a script besides. -/
def Draft.Grows (d : Draft) (script : Script) (d' : Draft) : Prop :=
  ∀ ms es, d.Records ms es →
    ∃ ms', ms'.map (·.id) = script.mentions ∧ d'.Records (ms ++ ms') (es ++ script.edges)

namespace Draft.Grows

variable {d d₁ d₂ : Draft}

theorem refl (d : Draft) : d.Grows (.join []) d := by
  intro ms es h
  refine ⟨[], rfl, ?_⟩
  show d.Records (ms ++ []) (es ++ [])
  rwa [List.append_nil, List.append_nil]

theorem trans {s t : Script} (first : d.Grows s d₁) (rest : d₁.Grows t d₂) :
    d.Grows (s ++ t) d₂ := by
  intro ms es h
  obtain ⟨ms₁, ids₁, h₁⟩ := first ms es h
  obtain ⟨ms₂, ids₂, h₂⟩ := rest _ _ h₁
  refine ⟨ms₁ ++ ms₂, ?_, ?_⟩
  · rw [List.map_append, ids₁, ids₂]
    rfl
  · rw [List.append_assoc, List.append_assoc] at h₂
    exact h₂

theorem of_records {s : Script} {groups : List Text} (h : ∀ ms es, d.Records ms es →
    d₁.Records (ms ++ mentionsIn groups s.mentions) (es ++ s.edges)) : d.Grows s d₁ :=
  fun ms es hd => ⟨_, mentionsIn_ids groups s.mentions, h ms es hd⟩

/-- A draft that was begun empty records the script. -/
theorem records {s : Script} (h : Draft.Grows {} s d) :
    ∃ ms, ms.map (·.id) = s.mentions ∧ d.Records ms s.edges :=
  h [] [] .empty

end Draft.Grows

/-- Lines that can be taken in are taken in from the first. -/
theorem exists_of_takeIn_cons {σ : Type} {step : σ → Nat → Text → Except Rejection σ}
    {st st' : σ} {k : Nat} {l : Text} {ls : List Text}
    (run : takeIn step k st (l :: ls) = .ok st') :
    ∃ st₁, step st k l = .ok st₁ ∧ takeIn step (k + 1) st₁ ls = .ok st' := by
  rw [takeIn_cons] at run
  exact ok_of_bind run

/-- What every line keeps is kept by all of them. -/
theorem keeps_of_takeIn {σ : Type} {P : σ → Prop} {step : σ → Nat → Text → Except Rejection σ}
    (keeps : ∀ {st k l st'}, step st k l = .ok st' → P st → P st') {ls : List Text} {k : Nat}
    {st st' : σ} (run : takeIn step k st ls = .ok st') (h : P st) : P st' := by
  induction ls generalizing st k with
  | nil =>
    cases run
    exact h
  | cons l ls ih =>
    obtain ⟨st₁, first, rest⟩ := exists_of_takeIn_cons run
    exact ih rest (keeps first h)

/-! ## Flowcharts -/

namespace FlowchartReader

def tokenIds (tokens : List Text) : List Text :=
  tokens.filterMap fun token => (NodeToken.read? (strip token)).map (·.id)

def chainEdges (ids : List Text) (links : List Link) : List Edge :=
  ((ids.zip ids.tail).zip links).map fun ((source, target), link) =>
    ⟨source, target, unquote (link.label.getD [])⟩

def chainIds (c : Chain) : List Text :=
  tokenIds (c.first :: c.rest.map Prod.snd)

def Statement.script : Statement → Script
  | .assignStyle ids _ => { mentions := ids }
  | .chain c => { mentions := chainIds c, edges := chainEdges (chainIds c) (c.rest.map Prod.fst) }
  | _ => {}

def readLine (line : Text) : Statement :=
  readStatement (strip (dropRightWhile (· = ';') line))

variable {d d' : Draft} {ms : List Mention} {es : List Edge} {k : Nat} {groups : List Text}

theorem assignStyle_records (h : d.Records ms es) (groups : List Text) (name : Text)
    (ids : List Text) : (assignStyle d groups name ids).Records (ms ++ mentionsIn groups ids) es := by
  induction ids generalizing d ms with
  | nil =>
    show d.Records (ms ++ []) es
    rwa [List.append_nil]
  | cons id ids ih =>
    have first : ((d.touch id groups).update id fun n => { n with styleClass := name }).Records
        (ms ++ [⟨id, groups⟩]) es := (h.touch id groups).update id fun _ => ⟨rfl, rfl⟩
    rw [mentionsIn_cons, List.append_cons]
    exact ih first

theorem addToken_records (h : d.Records ms es) (t : NodeToken) (groups : List Text) :
    (d.addToken t groups).Records (ms ++ [⟨t.id, groups⟩]) es := by
  apply (h.touch t.id groups).update
  intro n
  cases t.body <;> cases t.styleClass <;> exact ⟨rfl, rfl⟩

theorem exists_of_addTokens_cons {token : Text} {tokens ids : List Text}
    (run : d.addTokens k groups (token :: tokens) = .ok (d', ids)) :
    ∃ t rest, NodeToken.read? (strip token) = some t ∧
      (d.addToken t groups).addTokens k groups tokens = .ok (d', rest) ∧ ids = t.id :: rest := by
  rw [Draft.addTokens] at run
  obtain ⟨⟨d₁, id⟩, first, run⟩ := ok_of_bind run
  obtain ⟨⟨d₂, rest⟩, others, run⟩ := ok_of_bind run
  cases run
  unfold Draft.addTokenText at first
  split at first
  · rename_i t read
    cases first
    exact ⟨t, rest, read, others, rfl⟩
  · cases first

theorem addTokens_records (h : d.Records ms es) {tokens ids : List Text}
    (run : d.addTokens k groups tokens = .ok (d', ids)) :
    ids = tokenIds tokens ∧ d'.Records (ms ++ mentionsIn groups ids) es := by
  induction tokens generalizing d ms ids with
  | nil =>
    cases run
    refine ⟨rfl, ?_⟩
    show Draft.Records _ (ms ++ []) es
    rwa [List.append_nil]
  | cons token tokens ih =>
    obtain ⟨t, rest, read, others, rfl⟩ := exists_of_addTokens_cons run
    obtain ⟨rfl, after⟩ := ih (addToken_records h t groups) others
    refine ⟨by simp [tokenIds, read], ?_⟩
    rw [mentionsIn_cons, List.append_cons]
    exact after

theorem addEdges_records (h : d.Records ms es) {ids : List Text}
    (known : ∀ id ∈ ids, id ∈ ms.map (·.id)) (links : List Link) :
    (d.addEdges ids links).Records ms (es ++ chainEdges ids links) := by
  -- On the links: a link needs a node on either side, and nodes that are left over add nothing.
  induction links generalizing d es ids with
  | nil =>
    have same : d.addEdges ids [] = d := by
      unfold Draft.addEdges
      split <;> trivial
    rw [same, chainEdges, List.zip_nil_right, List.map_nil, List.append_nil]
    exact h
  | cons link links ih =>
    match ids with
    | [] | [_] =>
      show d.Records ms (es ++ [])
      rwa [List.append_nil]
    | source :: target :: ids =>
      have first := h.addEdge (known source (by simp)) (known target (by simp))
        (unquote (link.label.getD []))
      have rest := ih first fun id hid => known id (List.mem_cons_of_mem source hid)
      rw [List.append_assoc] at rest
      exact rest

theorem addChain_records (h : d.Records ms es) {c : Chain}
    (run : d.addChain k groups c = .ok d') :
    d'.Records (ms ++ mentionsIn groups (chainIds c))
      (es ++ chainEdges (chainIds c) (c.rest.map Prod.fst)) := by
  unfold Draft.addChain at run
  obtain ⟨⟨d₁, ids⟩, tokens, run⟩ := ok_of_bind run
  cases run
  obtain ⟨rfl, entered⟩ := addTokens_records h tokens
  apply addEdges_records entered
  intro id hid
  rw [List.map_append, mentionsIn_ids]
  exact List.mem_append_right _ hid

/-- **A statement is recorded, inside the subgraphs that are open.** -/
theorem State.add_records {st st' : State} {line : Text} {s : Statement}
    (run : st.add k line s = .ok st') (h : st.draft.Records ms es) :
    st'.draft.Records (ms ++ mentionsIn st.enclosing s.script.mentions) (es ++ s.script.edges) := by
  have unchanged : ∀ {d : Draft}, d.nodes = st.draft.nodes → d.edges = st.draft.edges →
      d.Records (ms ++ []) (es ++ []) := by
    intro d nodes edges
    rw [List.append_nil, List.append_nil]
    exact h.of_same nodes edges
  cases s with
  | closeSubgraph =>
    rw [State.add] at run
    split at run
    · cases run
    · cases run
      exact unchanged rfl rfl
  | openNamed id title =>
    cases run
    exact unchanged rfl rfl
  | openTitled title =>
    cases run
    exact unchanged rfl rfl
  | direction =>
    cases run
    exact unchanged rfl rfl
  | defineStyle name body =>
    cases run
    exact unchanged rfl rfl
  | assignStyle ids name =>
    cases run
    show Draft.Records _ _ (es ++ [])
    rw [List.append_nil]
    exact assignStyle_records h st.enclosing name ids
  | chain c =>
    rw [State.add] at run
    obtain ⟨d, added, run⟩ := ok_of_bind run
    cases run
    exact addChain_records h added

theorem grows_of_run {st st' : State} {ls : List Text}
    (run : takeIn State.addLine k st ls = .ok st') :
    st.draft.Grows (.join ((ls.map readLine).map Statement.script)) st'.draft := by
  induction ls generalizing st k with
  | nil =>
    cases run
    exact .refl _
  | cons l ls ih =>
    obtain ⟨st₁, first, rest⟩ := exists_of_takeIn_cons run
    have here : st.draft.Grows (readLine l).script st₁.draft :=
      .of_records fun _ _ => State.add_records first
    exact here.trans (ih rest)

theorem grows_of_read {ls : List Text} (run : read ls = .ok d) :
    Draft.Grows {} (.join ((ls.map readLine).map Statement.script)) d := by
  unfold read at run
  obtain ⟨st, lines, run⟩ := ok_of_bind run
  split at run
  · cases run
  · cases run
    exact grows_of_run lines

end FlowchartReader

/-! ## Class diagrams -/

namespace ClassReader

namespace Statement

def script : Statement → Script
  | .declare id _ _ => { mentions := [id] }
  | .relate source target label =>
    { mentions := [source, target], edges := [⟨source, target, label⟩] }
  | .skip => {}

def opensBody : Statement → Bool
  | .declare _ _ opens => opens
  | _ => false

end Statement

/-- The statements among the lines; a body, up to its closing brace, holds none. -/
def statements (inBody : Bool) : List Text → List Statement
  | [] => []
  | l :: ls =>
    if inBody then statements (l ≠ ['}']) ls
    else
      match readStatement? l with
      | some s => s :: statements s.opensBody ls
      | none => statements false ls

/-- **A statement is recorded.** -/
theorem State.add_records (st : State) (s : Statement) {ms : List Mention} {es : List Edge}
    (h : st.draft.Records ms es) :
    (st.add s).draft.Records (ms ++ mentionsIn [] s.script.mentions) (es ++ s.script.edges) := by
  cases s with
  | declare id label opensBody =>
    have declared : (st.draft.touch id []).Records (ms ++ [⟨id, []⟩]) (es ++ []) := by
      rw [List.append_nil]
      exact h.touch id []
    cases label with
    | none => exact declared
    | some l => exact declared.update id fun _ => ⟨rfl, rfl⟩
  | relate source target label => exact h.touch_touch_addEdge source target label
  | skip =>
    show st.draft.Records (ms ++ []) (es ++ [])
    rwa [List.append_nil, List.append_nil]

theorem State.add_inBody {st : State} (outside : st.inBody = false) (s : Statement) :
    (st.add s).inBody = s.opensBody := by
  cases s with
  | declare id label opensBody => rfl
  | relate source target label => exact outside
  | skip => exact outside

theorem grows_of_run {st st' : State} {ls : List Text} {k : Nat}
    (run : takeIn State.addLine k st ls = .ok st') :
    st.draft.Grows (.join ((statements st.inBody ls).map Statement.script)) st'.draft := by
  induction ls generalizing st k with
  | nil =>
    cases run
    exact .refl _
  | cons l ls ih =>
    obtain ⟨st₁, first, rest⟩ := exists_of_takeIn_cons run
    by_cases inBody : st.inBody = true
    · rw [State.addLine, if_pos inBody] at first
      cases first
      rw [statements, if_pos inBody]
      exact ih rest
    · rw [State.addLine, if_neg inBody] at first
      split at first
      · rename_i s read
        cases first
        have others := ih rest
        rw [State.add_inBody (Bool.eq_false_iff.mpr inBody)] at others
        have here : st.draft.Grows s.script (st.add s).draft :=
          .of_records fun _ _ => State.add_records st s
        rw [statements, if_neg inBody, read]
        exact here.trans others
      · cases first

theorem grows_of_read {ls : List Text} {d : Draft} (run : read ls = .ok d) :
    Draft.Grows {} (.join ((statements false ls).map Statement.script)) d := by
  unfold read at run
  obtain ⟨st, lines, run⟩ := ok_of_bind run
  cases run
  exact grows_of_run lines

end ClassReader

/-! ## Sequence diagrams -/

namespace SequenceReader

def Statement.script : Statement → Script
  | .participant id _ => { mentions := [id] }
  | .message source target label =>
    { mentions := [source, target], edges := [⟨source, target, label⟩] }
  | .skip => {}

/-- **A statement is recorded.** -/
theorem addStatement_records {d : Draft} (s : Statement) {ms : List Mention} {es : List Edge}
    (h : d.Records ms es) :
    (addStatement d s).Records (ms ++ mentionsIn [] s.script.mentions) (es ++ s.script.edges) := by
  cases s with
  | participant id label =>
    have entered : (d.touch id []).Records (ms ++ [⟨id, []⟩]) (es ++ []) := by
      rw [List.append_nil]
      exact h.touch id []
    cases label with
    | none => exact entered
    | some l => exact entered.update id fun _ => ⟨rfl, rfl⟩
  | message source target label => exact h.touch_touch_addEdge source target label
  | skip =>
    show d.Records (ms ++ []) (es ++ [])
    rwa [List.append_nil, List.append_nil]

theorem grows_of_run {d d' : Draft} {ls : List Text} {k : Nat}
    (run : takeIn addLine k d ls = .ok d') :
    d.Grows (.join ((ls.filterMap readStatement?).map Statement.script)) d' := by
  induction ls generalizing d k with
  | nil =>
    cases run
    exact .refl _
  | cons l ls ih =>
    obtain ⟨d₁, first, rest⟩ := exists_of_takeIn_cons run
    unfold addLine at first
    split at first
    · rename_i s read
      cases first
      have here : d.Grows s.script (addStatement d s) :=
        .of_records fun _ _ => addStatement_records s
      rw [List.filterMap_cons, read]
      exact here.trans (ih rest)
    · cases first

end SequenceReader

/-! ## Diagrams -/

def diagramScript (s : Text) : Script :=
  match diagramLines (prepareForRendering s) with
  | [] => {}
  | header :: ls =>
    let keyword := (words header).headD []
    .join <|
      if keyword = "flowchart".toList || keyword = "graph".toList then
        (ls.map FlowchartReader.readLine).map FlowchartReader.Statement.script
      else if keyword = "classDiagram".toList then
        (ClassReader.statements false ls).map ClassReader.Statement.script
      else (ls.filterMap SequenceReader.readStatement?).map SequenceReader.Statement.script

/-- **A diagram that is read records its script.** -/
theorem readDiagram_records {s : Text} {d : Draft} (read : readDiagram s = .ok d) :
    ∃ ms, ms.map (·.id) = (diagramScript s).mentions ∧ d.Records ms (diagramScript s).edges := by
  apply Draft.Grows.records
  unfold readDiagram at read
  unfold diagramScript
  cases seen : diagramLines (prepareForRendering s) with
  | nil =>
    rw [seen] at read
    cases read
  | cons header ls =>
    rw [seen] at read
    dsimp only at read ⊢
    split at read
    · rename_i flowchart
      rw [if_pos flowchart]
      exact FlowchartReader.grows_of_read read
    · rename_i other
      rw [if_neg other]
      split at read
      · rename_i classes
        rw [if_pos classes]
        exact ClassReader.grows_of_read read
      · rename_i noClasses
        rw [if_neg noClasses]
        split at read
        · exact SequenceReader.grows_of_run read
        · cases read

end Drawbridge
