import Drawbridge.Proofs.Diagram.Drafting
import Drawbridge.Proofs.Diagram.GroupedLayout

/-!
Which subgraphs of a flowchart stay apart. `walkOf` goes through the statements of a flowchart and
notes every line that opens a subgraph, with the subgraphs around it, and every mention of a node,
with the subgraphs around it. A reader keeps subgraphs by their identifiers only
(`State.Tracks`), and a line that gives a title only has an identifier made of the title
(`identOf`), in which every character but letters, digits and underscores is the same.

* `State.Tracks.step`, `tracks_of_read`: what a reader keeps, statement by statement;
* `Walk.Formed.step`, `Nested.eq_of_around`: subgraphs beside one another are around no common line;
* `State.Tracks.shapeGroups`, `State.Tracks.groupLabel`: groups and labels of the layout;
* `subgraphs_keptApart_iff`: two subgraphs that have nothing but titles stay apart just if these are
  unmistakable, as they are where no identifier is used twice (`unmistakable_of_nodup`);
* `titles_merged`: two titles that come to one identifier.
-/

namespace Drawbridge

/-! ## Dictionaries -/

namespace Dictionary

variable {α : Type}

theorem keys_insert (d : Dictionary α) (key : Text) (value : α) :
    (d.insert key value).map Prod.fst =
      if key ∈ d.map Prod.fst then d.map Prod.fst else d.map Prod.fst ++ [key] := by
  induction d with
  | nil => rfl
  | cons p d ih =>
    rw [insert]
    by_cases here : p.1 = key
    · simp [here]
    · rw [if_neg here, List.map_cons, ih]
      by_cases later : key ∈ d.map Prod.fst <;> simp [later, Ne.symm here]

theorem get?_insert (d : Dictionary α) (key : Text) (value : α) (key' : Text) :
    (d.insert key value).get? key' = if key = key' then some value else d.get? key' := by
  induction d with
  | nil => rfl
  | cons p d ih =>
    rw [insert]
    by_cases here : p.1 = key
    · rw [if_pos here, get?, get?]
      by_cases same : key = key' <;> simp [here, same]
    · rw [if_neg here, get?, get?, ih]
      by_cases same : key = key'
      · simp [same, same ▸ here]
      · simp [same]

theorem ofList_concat (l : List (Text × α)) (key : Text) (value : α) :
    ofList (l ++ [(key, value)]) = (ofList l).insert key value :=
  List.foldl_append

theorem keys_ofList (l : List (Text × α)) :
    (ofList l).map Prod.fst = (l.map Prod.fst).eraseDups := by
  induction l using List.reverseRecOn with
  | nil => rfl
  | append_singleton l p ih =>
    rw [ofList_concat, keys_insert, ih, List.map_append]
    simp only [List.map_singleton, eraseDups_concat, List.mem_eraseDups]

theorem get?_ofList (l : List (Text × α)) (key : Text) :
    (ofList l).get? key = (l.reverse.find? fun p => p.1 = key).map Prod.snd := by
  induction l using List.reverseRecOn with
  | nil => rfl
  | append_singleton l p ih =>
    rw [ofList_concat, get?_insert, ih, List.reverse_append, List.reverse_singleton,
      List.singleton_append, List.find?_cons]
    by_cases same : p.1 = key <;> simp [same]

/-- A value that is given under a key of its own is found there. -/
theorem get?_ofList_of_mem {l : List (Text × α)}
    (distinct : (l.map Prod.fst).Nodup) {key : Text} {value : α} (h : (key, value) ∈ l) :
    (ofList l).get? key = some value := by
  have found : (l.reverse.find? fun p => p.1 = key).isSome = true :=
    List.find?_isSome.mpr ⟨(key, value), List.mem_reverse.mpr h, decide_eq_true rfl⟩
  obtain ⟨p, hp⟩ := Option.isSome_iff_exists.mp found
  have mem : p ∈ l := List.mem_reverse.mp (List.mem_of_find?_eq_some hp)
  have same : p.1 = key := by simpa using List.find?_some hp
  rw [get?_ofList, hp, List.inj_on_of_nodup_map distinct mem h same]
  rfl

end Dictionary

namespace FlowchartReader

/-! ## Walking through a flowchart -/

def identOf (title : Text) : Text :=
  title.map fun c => if isIdentChar c then c else '_'

theorem identOf_eq_self {title : Text} (h : ∀ c ∈ title, isIdentChar c = true) :
    identOf title = title :=
  map_eq_self fun c hc => if_pos (h c hc)

structure Opening where
  /-- The number of such lines before. -/
  place : Nat
  id : Text
  title : Text
  /-- Whether the line gives a title and nothing else. -/
  titleOnly : Bool
  /-- The places of the subgraphs around, outermost first. -/
  around : List Nat
  deriving DecidableEq, Repr

/-- What there is in some statements: lines that open subgraphs, those that are still open, outermost
first, and mentions of nodes with the subgraphs around them. -/
structure Walk where
  openings : List Opening := []
  inside : List Opening := []
  mentions : List (Text × List Opening) := []
  deriving DecidableEq, Repr

namespace Walk

def enter (w : Walk) (id title : Text) (titleOnly : Bool) : Walk :=
  let o : Opening := ⟨w.openings.length, id, title, titleOnly, w.inside.map (·.place)⟩
  { w with openings := w.openings ++ [o], inside := w.inside ++ [o] }

/-- An identifier for a subgraph without a title, by the number of identifiers before. -/
def freshId (w : Walk) : Text :=
  "subgraph".toList ++ decimal ((w.openings.map (·.id)).eraseDups.length + 1)

def step (w : Walk) : Statement → Walk
  | .closeSubgraph => { w with inside := w.inside.dropLast }
  | .openNamed id none => w.enter id id true
  | .openNamed id (some title) => w.enter id (if title = [] then id else unquote title) false
  | .openTitled title => w.enter (if title = [] then w.freshId else identOf title) title true
  | s => { w with mentions := w.mentions ++ s.script.mentions.map fun id => (id, w.inside) }

/-- The mentions as a draft records them. -/
def record (w : Walk) : List Mention :=
  w.mentions.map fun m => ⟨m.1, m.2.map (·.id)⟩

theorem step_record (w : Walk) (s : Statement) :
    (w.step s).record = w.record ++ mentionsIn (w.inside.map (·.id)) s.script.mentions := by
  have none : w.record = w.record ++ mentionsIn (w.inside.map (·.id)) [] :=
    (List.append_nil _).symm
  have some : ∀ ids : List Text, (w.mentions ++ ids.map fun id => (id, w.inside)).map
      (fun m => (⟨m.1, m.2.map (·.id)⟩ : Mention)) =
        w.record ++ mentionsIn (w.inside.map (·.id)) ids := by
    intro ids
    rw [List.map_append, List.map_map]
    rfl
  cases s with
  | closeSubgraph => exact none
  | openNamed id title => cases title <;> exact none
  | openTitled title => exact none
  | direction => exact some []
  | defineStyle name body => exact some []
  | assignStyle ids name => exact some ids
  | chain c => exact some (chainIds c)

end Walk

def walkOf (ls : List Text) : Walk :=
  (ls.map readLine).foldl Walk.step {}

/-! ## What a reader keeps of it -/

theorem titleId_nil (d : Draft) :
    titleId d [] = "subgraph".toList ++ decimal (d.titles.length + 1) := by
  simp only [titleId, List.map_nil]

theorem titleId_cons (d : Draft) (c : Char) (title : Text) :
    titleId d (c :: title) = identOf (c :: title) := by
  simp only [titleId, identOf, List.map_cons]

section Titles

variable (d : Draft)

theorem touch_titles (id : Text) (groups : List Text) : (d.touch id groups).titles = d.titles := by
  unfold Draft.touch
  split <;> rfl

theorem assignStyle_titles (groups : List Text) (name : Text) (ids : List Text) :
    (assignStyle d groups name ids).titles = d.titles := by
  induction ids generalizing d with
  | nil => rfl
  | cons id ids ih => exact (ih _).trans (touch_titles d id groups)

theorem addTokens_titles {d d' : Draft} {k : Nat} {groups tokens ids : List Text}
    (run : d.addTokens k groups tokens = .ok (d', ids)) : d'.titles = d.titles := by
  induction tokens generalizing d ids with
  | nil =>
    cases run
    rfl
  | cons token tokens ih =>
    obtain ⟨t, rest, -, others, -⟩ := exists_of_addTokens_cons run
    exact (ih others).trans (touch_titles d t.id groups)

theorem addEdges_titles (ids : List Text) (links : List Link) :
    (d.addEdges ids links).titles = d.titles := by
  induction links generalizing d ids with
  | nil =>
    unfold Draft.addEdges
    split <;> trivial
  | cons link links ih =>
    match ids with
    | [] | [_] => rfl
    | source :: target :: ids => exact ih _ (target :: ids)

theorem addChain_titles {d d' : Draft} {k : Nat} {groups : List Text} {c : Chain}
    (run : d.addChain k groups c = .ok d') : d'.titles = d.titles := by
  unfold Draft.addChain at run
  obtain ⟨⟨d₁, ids⟩, tokens, run⟩ := ok_of_bind run
  cases run
  exact (addEdges_titles d₁ ids _).trans (addTokens_titles tokens)

end Titles

/-- A reader has kept the titles and mentions of a walk by the identifiers of its subgraphs. -/
structure State.Tracks (st : State) (w : Walk) : Prop where
  titles : st.draft.titles = Dictionary.ofList (w.openings.map fun o => (o.id, o.title))
  enclosing : st.enclosing = w.inside.map (·.id)
  mentions : ∃ es, st.draft.Records w.record es

namespace State.Tracks

variable {st st' : State} {w : Walk}

theorem keys (h : st.Tracks w) :
    st.draft.titles.map Prod.fst = (w.openings.map (·.id)).eraseDups := by
  rw [h.titles, Dictionary.keys_ofList, List.map_map]
  rfl

theorem titleId_eq (h : st.Tracks w) (title : Text) :
    titleId st.draft title = if title = [] then w.freshId else identOf title := by
  have count : st.draft.titles.length = (w.openings.map (·.id)).eraseDups.length := by
    rw [← h.keys, List.length_map]
  cases title with
  | nil =>
    rw [if_pos rfl, titleId_nil, count]
    rfl
  | cons c title => rw [titleId_cons, if_neg (List.cons_ne_nil c title)]

theorem enter (h : st.Tracks w) (id title : Text) (titleOnly : Bool) :
    (st.enter id title).Tracks (w.enter id title titleOnly) where
  titles := by
    simp only [State.enter, Walk.enter, List.map_append, List.map_singleton,
      Dictionary.ofList_concat, h.titles]
  enclosing := by
    simp only [State.enter, Walk.enter, List.map_append, List.map_singleton, h.enclosing]
  mentions := by
    obtain ⟨es, recorded⟩ := h.mentions
    exact ⟨es, recorded.of_same rfl rfl⟩

/-- **A reader goes along with the walk, statement by statement.** -/
theorem step (h : st.Tracks w) {k : Nat} {line : Text} {s : Statement}
    (run : st.add k line s = .ok st') : st'.Tracks (w.step s) := by
  -- Mentions are recorded alike for all kinds of statements; the cases are about the titles.
  have mentions : ∃ es, st'.draft.Records (w.step s).record es := by
    obtain ⟨es, recorded⟩ := h.mentions
    refine ⟨es ++ s.script.edges, ?_⟩
    rw [w.step_record, ← h.enclosing]
    exact State.add_records run recorded
  cases s with
  | closeSubgraph =>
    rw [State.add] at run
    split at run
    · cases run
    · cases run
      refine ⟨h.titles, ?_, mentions⟩
      show st.enclosing.dropLast = w.inside.dropLast.map _
      rw [h.enclosing, List.map_dropLast]
  | openNamed id title =>
    cases run
    rcases title with _ | _ | ⟨c, t⟩
    · exact h.enter id id true
    · exact h.enter id id false
    · exact h.enter id (unquote (c :: t)) false
  | openTitled title =>
    cases run
    rw [h.titleId_eq]
    exact h.enter _ title true
  | direction =>
    cases run
    exact ⟨h.titles, h.enclosing, mentions⟩
  | defineStyle name body =>
    cases run
    exact ⟨h.titles, h.enclosing, mentions⟩
  | assignStyle ids name =>
    cases run
    exact ⟨(assignStyle_titles _ _ _ _).trans h.titles, h.enclosing, mentions⟩
  | chain c =>
    rw [State.add] at run
    obtain ⟨d, added, run⟩ := ok_of_bind run
    cases run
    exact ⟨(addChain_titles added).trans h.titles, h.enclosing, mentions⟩

theorem run {ls : List Text} (h : st.Tracks w) {k : Nat}
    (lines : takeIn State.addLine k st ls = .ok st') :
    st'.Tracks ((ls.map readLine).foldl Walk.step w) := by
  induction ls generalizing st w k with
  | nil =>
    cases lines
    exact h
  | cons l ls ih =>
    obtain ⟨st₁, first, rest⟩ := exists_of_takeIn_cons lines
    exact ih (h.step first) rest

end State.Tracks

theorem tracks_of_read {ls : List Text} {d : Draft} (run : read ls = .ok d) :
    ∃ st : State, st.draft = d ∧ st.Tracks (walkOf ls) := by
  have start : State.Tracks {} {} := ⟨rfl, rfl, [], .empty⟩
  unfold read at run
  obtain ⟨st, lines, run⟩ := ok_of_bind run
  split at run
  · cases run
  · cases run
    exact ⟨st, rfl, start.run lines⟩

/-! ## Subgraphs in one another -/

/-- Subgraphs that lie in one another, outermost first. -/
def Nested (bs : List Opening) : Prop :=
  ∀ i (h : i < bs.length), bs[i].around = (bs.take i).map (·.place)

theorem Nested.dropLast {bs : List Opening} (h : Nested bs) : Nested bs.dropLast := by
  intro i hi
  have before : i < bs.length - 1 := by rwa [List.length_dropLast] at hi
  have outer : bs.dropLast.take i = bs.take i := by
    rw [List.dropLast_eq_take, List.take_take, Nat.min_eq_left (by omega)]
  rw [List.getElem_dropLast, outer]
  exact h i (by omega)

theorem Nested.concat {bs : List Opening} (h : Nested bs) {o : Opening}
    (inside : o.around = bs.map (·.place)) : Nested (bs ++ [o]) := by
  intro i hi
  rw [List.length_append, List.length_singleton] at hi
  by_cases old : i < bs.length
  · rw [List.getElem_append_left old, List.take_append_of_le_length (by omega)]
    exact h i old
  · obtain rfl : i = bs.length := by omega
    rw [List.getElem_concat_length rfl, List.take_left]
    exact inside

/-- **Two subgraphs beside one another are not both around a line.** -/
theorem Nested.eq_of_around {bs : List Opening} (h : Nested bs) {o o' : Opening} (ho : o ∈ bs)
    (ho' : o' ∈ bs) (beside : o.around = o'.around) : o = o' := by
  obtain ⟨i, hi, rfl⟩ := List.getElem_of_mem ho
  obtain ⟨j, hj, rfl⟩ := List.getElem_of_mem ho'
  -- The number of subgraphs around one tells its place in the list.
  have lengths := congrArg List.length beside
  rw [h i hi, h j hj, List.length_map, List.length_map, List.length_take_of_le (by omega),
    List.length_take_of_le (by omega)] at lengths
  subst lengths
  rfl

/-- Lines that open subgraphs with a title only have an identifier made of it. -/
def Opening.Named (o : Opening) : Prop :=
  o.titleOnly = true → o.title ≠ [] → o.id = identOf o.title

/-- What holds of every walk. -/
structure Walk.Formed (w : Walk) : Prop where
  inside : Nested w.inside
  listed : ∀ o ∈ w.inside, o ∈ w.openings
  mentions : ∀ m ∈ w.mentions, Nested m.2 ∧ ∀ o ∈ m.2, o ∈ w.openings
  named : ∀ o ∈ w.openings, o.Named

namespace Walk.Formed

variable {w : Walk}

theorem enter (h : w.Formed) {id title : Text} {titleOnly : Bool}
    (named : titleOnly = true → title ≠ [] → id = identOf title) :
    (w.enter id title titleOnly).Formed where
  inside := h.inside.concat rfl
  listed := by
    intro o ho
    rcases List.mem_append.mp ho with ho | ho
    · exact List.mem_append_left _ (h.listed o ho)
    · exact List.mem_append_right _ ho
  mentions := by
    intro m hm
    obtain ⟨nested, listed⟩ := h.mentions m hm
    exact ⟨nested, fun o ho => List.mem_append_left _ (listed o ho)⟩
  named := by
    intro o ho
    rcases List.mem_append.mp ho with ho | ho
    · exact h.named o ho
    · obtain rfl := List.mem_singleton.mp ho
      exact named

theorem mention (h : w.Formed) (ids : List Text) :
    Formed { w with mentions := w.mentions ++ ids.map fun id => (id, w.inside) } where
  inside := h.inside
  listed := h.listed
  mentions := by
    intro m hm
    rcases List.mem_append.mp hm with hm | hm
    · exact h.mentions m hm
    · obtain ⟨id, -, rfl⟩ := List.mem_map.mp hm
      exact ⟨h.inside, h.listed⟩
  named := h.named

theorem step (h : w.Formed) {s : Statement}
    (ident : ∀ id, s = .openNamed id none → ∀ c ∈ id, isIdentChar c = true) :
    (w.step s).Formed := by
  cases s with
  | closeSubgraph =>
    exact ⟨h.inside.dropLast, fun o ho => h.listed o (List.mem_of_mem_dropLast ho), h.mentions,
      h.named⟩
  | openNamed id title =>
    cases title with
    | none => exact h.enter fun _ _ => (identOf_eq_self (ident id rfl)).symm
    | some title => exact h.enter nofun
  | openTitled title => exact h.enter fun _ full => if_neg full
  | direction => exact h.mention []
  | defineStyle name body => exact h.mention []
  | assignStyle ids name => exact h.mention ids
  | chain c => exact h.mention (chainIds c)

end Walk.Formed

theorem isIdentChar_of_readNamed? {s id : Text} {title : Option Text}
    (h : readNamed? s = some (.openNamed id title)) : ∀ c ∈ id, isIdentChar c = true := by
  unfold readNamed? at h
  obtain ⟨r, -, h⟩ := Option.bind_eq_some_iff.mp h
  dsimp only at h
  split at h
  · cases h
  · split at h
    · cases h
      exact fun c => List.mem_takeWhile_imp
    · obtain ⟨t, -, h⟩ := Option.map_eq_some_iff.mp h
      cases h
      exact fun c => List.mem_takeWhile_imp

theorem readStyleDef?_kind {s : Text} {x : Statement} (h : readStyleDef? s = some x) :
    ∃ name body, x = .defineStyle name body := by
  unfold readStyleDef? at h
  obtain ⟨r, -, h⟩ := Option.bind_eq_some_iff.mp h
  dsimp only at h
  split at h
  · cases h
  · exact ⟨_, _, (Option.some.inj h).symm⟩

theorem readStyleUse?_kind {s : Text} {x : Statement} (h : readStyleUse? s = some x) :
    ∃ ids name, x = .assignStyle ids name := by
  unfold readStyleUse? at h
  obtain ⟨r, -, h⟩ := Option.bind_eq_some_iff.mp h
  dsimp only at h
  generalize (if r.getLast? = some ';' then r.dropLast else r) = t at h
  split at h
  · exact ⟨_, _, (Option.some.inj h).symm⟩
  · cases h

/-- The identifier of a subgraph, where a line gives one, is an identifier. -/
theorem isIdentChar_of_readStatement {s id : Text} {title : Option Text}
    (h : readStatement s = .openNamed id title) : ∀ c ∈ id, isIdentChar c = true := by
  unfold readStatement at h
  split at h
  · cases h
  split at h
  · unfold readSubgraph at h
    cases named : readNamed? s with
    | none =>
      rw [named] at h
      cases h
    | some x =>
      rw [named] at h
      obtain rfl : x = .openNamed id title := h
      exact isIdentChar_of_readNamed? named
  split at h
  · cases h
  · cases defined : readStyleDef? s with
    | some x =>
      obtain ⟨name, body, rfl⟩ := readStyleDef?_kind defined
      rw [defined] at h
      cases h
    | none =>
      cases used : readStyleUse? s with
      | some x =>
        obtain ⟨ids, name, rfl⟩ := readStyleUse?_kind used
        rw [defined, used] at h
        cases h
      | none =>
        rw [defined, used] at h
        cases h

theorem Walk.Formed.empty : Walk.Formed {} where
  inside := nofun
  listed := nofun
  mentions := nofun
  named := nofun

theorem Walk.Formed.run {w : Walk} (h : w.Formed) (ls : List Text) :
    ((ls.map readLine).foldl Walk.step w).Formed := by
  induction ls generalizing w with
  | nil => exact h
  | cons l ls ih => exact ih (h.step fun _ named => isIdentChar_of_readStatement named)

/-- **In a flowchart, subgraphs lie in one another, and titles make identifiers.** -/
theorem walkOf_formed (ls : List Text) : (walkOf ls).Formed :=
  Walk.Formed.empty.run ls

/-! ## Groups -/

namespace Walk

variable (w : Walk)

/-- The nodes in the order in which they are first mentioned. -/
def nodeIds : List Text :=
  (w.mentions.map Prod.fst).eraseDups

/-- The subgraphs around the first mention of a node inside any, outermost first. -/
def blocksAt (id : Text) : List Opening :=
  ((w.mentions.find? fun m => m.1 = id && m.2 ≠ []).map Prod.snd).getD []

/-- The group of a subgraph: subgraphs are numbered by their identifiers. -/
def groupOf (o : Opening) : Text :=
  Layout.numbered "group" ((w.openings.map (·.id)).eraseDups.idxOf o.id + 1)

def groupsOf (id : Text) : List Text :=
  (w.blocksAt id).reverse.map w.groupOf

/-- The title that was given last under an identifier. -/
def lastTitle? (id : Text) : Option Text :=
  (w.openings.reverse.find? fun o => o.id = id).map (·.title)

variable {w}

theorem record_ids : (w.record.map (·.id)).eraseDups = w.nodeIds := by
  rw [record, List.map_map]
  rfl

theorem groupsAt_record (id : Text) : groupsAt w.record id = (w.blocksAt id).map (·.id) := by
  have mention : ((fun m : Mention => decide (m.id = id) && decide (m.groups ≠ [])) ∘
      fun m : Text × List Opening => ⟨m.1, m.2.map (·.id)⟩) =
        fun m => decide (m.1 = id) && decide (m.2 ≠ []) := by
    funext m
    simp
  rw [groupsAt, record, List.find?_map, mention, blocksAt]
  cases w.mentions.find? fun m => decide (m.1 = id) && decide (m.2 ≠ []) <;> rfl

theorem mem_openings_of_mem_blocksAt (formed : w.Formed) {id : Text} {o : Opening}
    (h : o ∈ w.blocksAt id) : o ∈ w.openings ∧ ∃ bs, (id, bs) ∈ w.mentions ∧ w.blocksAt id = bs := by
  unfold blocksAt at h ⊢
  cases first : w.mentions.find? fun m => m.1 = id && m.2 ≠ [] with
  | none =>
    rw [first] at h
    cases h
  | some m =>
    rw [first] at h
    have listed := List.mem_of_find?_eq_some first
    have found := List.find?_some first
    have same : m.1 = id := of_decide_eq_true (Bool.and_eq_true_iff.mp found).1
    exact ⟨(formed.mentions m listed).2 o h, m.2, same ▸ listed, rfl⟩

/-- **Two subgraphs have one group just if they have one identifier.** -/
theorem groupOf_eq_iff {o o' : Opening} (ho : o ∈ w.openings) :
    w.groupOf o = w.groupOf o' ↔ o.id = o'.id := by
  constructor
  · intro same
    have places := Nat.succ.inj (Layout.numbered_injective rfl same)
    exact (List.idxOf_inj (List.mem_eraseDups.mpr (List.mem_map_of_mem ho))).mp places
  · intro same
    rw [groupOf, groupOf, same]

theorem mem_groupsOf_iff (formed : w.Formed) {id : Text} {o : Opening} :
    w.groupOf o ∈ w.groupsOf id ↔ ∃ b ∈ w.blocksAt id, b.id = o.id := by
  rw [groupsOf, List.mem_map]
  constructor
  · rintro ⟨b, hb, same⟩
    rw [List.mem_reverse] at hb
    exact ⟨b, hb, (groupOf_eq_iff (mem_openings_of_mem_blocksAt formed hb).1).mp same⟩
  · rintro ⟨b, hb, same⟩
    exact ⟨b, List.mem_reverse.mpr hb,
      (groupOf_eq_iff (mem_openings_of_mem_blocksAt formed hb).1).mpr same⟩

end Walk

namespace State.Tracks

variable {st : State} {w : Walk}

theorem titleId_groupOf (h : st.Tracks w) (o : Opening) :
    Layout.titleId st.draft.titles o.id = w.groupOf o := by
  rw [Layout.titleId, h.keys, Walk.groupOf]

theorem mem_keys (h : st.Tracks w) {o : Opening} (ho : o ∈ w.openings) :
    o.id ∈ st.draft.titles.map Prod.fst := by
  rw [h.keys]
  exact List.mem_eraseDups.mpr (List.mem_map_of_mem ho)

/-- **The label of a group is the title that was given last under its identifier.** -/
theorem groupLabel (h : st.Tracks w) {o : Opening} (ho : o ∈ w.openings) :
    (Layout.render st.draft).groupLabels.get? (w.groupOf o) = w.lastTitle? o.id := by
  rw [← h.titleId_groupOf, Layout.get?_groupLabels (h.mem_keys ho), h.titles,
    Dictionary.get?_ofList, ← List.map_reverse, List.find?_map, Walk.lastTitle?, Option.map_map]
  rfl

/-- **Shapes are in the groups of the subgraphs around their nodes.** -/
theorem shapeGroups (h : st.Tracks w) (formed : w.Formed) :
    ((Layout.render st.draft).elements.filter Element.isShape).map (·.groupIds) =
      w.nodeIds.map w.groupsOf := by
  obtain ⟨es, recorded⟩ := h.mentions
  have known : Layout.EndsKnown st.draft := fun e he => recorded.known_ends he
  have nodes : (Layout.placedNodes st.draft).map (·.node) = st.draft.nodes :=
    Layout.placeNodes_map 0 _ st.draft.nodes
  have each : ∀ n ∈ st.draft.nodes,
      Layout.groupsOf (Layout.groupIds st.draft.titles) n = w.groupsOf n.id := by
    intro n hn
    rw [Layout.groupsOf, recorded.groups n hn, Walk.groupsAt_record, ← List.map_reverse,
      List.filterMap_map, Walk.groupsOf, ← List.filterMap_eq_map]
    apply List.filterMap_congr
    intro o ho
    have opened := (Walk.mem_openings_of_mem_blocksAt formed (List.mem_reverse.mp ho)).1
    exact (Layout.get?_groupIds (h.mem_keys opened)).trans (congrArg some (h.titleId_groupOf o))
  have carried : st.draft.nodes.map (w.groupsOf ∘ (·.id)) =
      st.draft.nodes.map (Layout.groupsOf (Layout.groupIds st.draft.titles)) :=
    (List.map_congr_left each).symm
  have shapes := filterMap_shapeItem? (·.groupIds) (Layout.render st.draft).elements
  have live := Layout.sceneShapes_render known
  rw [sceneShapes, Layout.liveElements_render] at live
  rw [← shapes, live, List.map_map, ← Walk.record_ids, ← recorded.nodes, List.map_map, carried,
    ← nodes, List.map_map]
  rfl

end State.Tracks

/-! ## Two subgraphs -/

/-- A node is mentioned inside a subgraph and nowhere else. -/
def Walk.OnlyIn (w : Walk) (o : Opening) (id : Text) : Prop :=
  id ∈ w.nodeIds ∧ ∀ m ∈ w.mentions, m.1 = id → o ∈ m.2

/-- Two subgraphs have groups of their own, under their titles. If they lie beside one another, a node
of one of them is not in the group of the other. -/
structure KeptApart (w : Walk) (labels : Dictionary Text) (o o' : Opening) : Prop where
  groups : w.groupOf o ≠ w.groupOf o'
  label : labels.get? (w.groupOf o) = some o.title
  label' : labels.get? (w.groupOf o') = some o'.title
  members : o.around = o'.around → ∀ id, w.OnlyIn o id → w.groupOf o' ∉ w.groupsOf id
  members' : o.around = o'.around → ∀ id, w.OnlyIn o' id → w.groupOf o ∉ w.groupsOf id

/-- Two titles make different identifiers, under which no other title is given later. If the subgraphs
lie beside one another, no third subgraph around a node of one has the identifier of the other. -/
structure Unmistakable (w : Walk) (o o' : Opening) : Prop where
  idents : identOf o.title ≠ identOf o'.title
  last : w.lastTitle? (identOf o.title) = some o.title
  last' : w.lastTitle? (identOf o'.title) = some o'.title
  thirds : o.around = o'.around → ∀ id, w.OnlyIn o id →
    ∀ b ∈ w.blocksAt id, b ≠ o' → b.id ≠ identOf o'.title
  thirds' : o.around = o'.around → ∀ id, w.OnlyIn o' id →
    ∀ b ∈ w.blocksAt id, b ≠ o → b.id ≠ identOf o.title

section Pairs

variable {w : Walk} (formed : w.Formed) {o o' : Opening}

include formed

/-- Around a node of one subgraph there is none beside it. -/
theorem Walk.OnlyIn.not_mem_blocksAt {id : Text} (h : w.OnlyIn o id) (beside : o.around = o'.around)
    (other : o ≠ o') : o' ∉ w.blocksAt id := by
  intro mem
  obtain ⟨-, bs, mention, around⟩ := Walk.mem_openings_of_mem_blocksAt formed mem
  rw [around] at mem
  have nested := (formed.mentions _ mention).1
  exact other (nested.eq_of_around (h.2 _ mention rfl) mem beside)

/-- A node of one subgraph is in the group of another beside it only by a third subgraph. -/
theorem Walk.OnlyIn.groupOf_not_mem_iff {id : Text} (h : w.OnlyIn o id)
    (beside : o.around = o'.around) (other : o ≠ o') :
    w.groupOf o' ∉ w.groupsOf id ↔ ∀ b ∈ w.blocksAt id, b ≠ o' → b.id ≠ o'.id := by
  rw [Walk.mem_groupsOf_iff formed]
  constructor
  · exact fun none b hb _ same => none ⟨b, hb, same⟩
  · rintro none ⟨b, hb, same⟩
    have third : b ≠ o' := by
      rintro rfl
      exact h.not_mem_blocksAt formed beside other hb
    exact none b hb third same

/-- **Two subgraphs stay apart just if they are unmistakable.** -/
theorem keptApart_iff {st : State} (tracks : st.Tracks w) (ho : o ∈ w.openings)
    (ho' : o' ∈ w.openings) (named : o.id = identOf o.title) (named' : o'.id = identOf o'.title) :
    KeptApart w (Layout.render st.draft).groupLabels o o' ↔ Unmistakable w o o' := by
  have groups : w.groupOf o = w.groupOf o' ↔ o.id = o'.id := Walk.groupOf_eq_iff ho
  have label := tracks.groupLabel ho
  have label' := tracks.groupLabel ho'
  rw [named, named'] at groups
  rw [named] at label
  rw [named'] at label'
  constructor
  · intro h
    have other : o ≠ o' := fun same => h.groups (congrArg w.groupOf same)
    refine ⟨fun same => h.groups (groups.mpr same), label ▸ h.label, label' ▸ h.label', ?_, ?_⟩
    · intro beside id inside
      rw [← named']
      exact (inside.groupOf_not_mem_iff formed beside other).mp (h.members beside id inside)
    · intro beside id inside
      rw [← named]
      exact (inside.groupOf_not_mem_iff formed beside.symm other.symm).mp
        (h.members' beside id inside)
  · intro h
    have other : o ≠ o' := fun same => h.idents (congrArg (fun o => identOf o.title) same)
    refine ⟨fun same => h.idents (groups.mp same), label.trans h.last, label'.trans h.last', ?_, ?_⟩
    · intro beside id inside
      rw [inside.groupOf_not_mem_iff formed beside other, named']
      exact h.thirds beside id inside
    · intro beside id inside
      rw [inside.groupOf_not_mem_iff formed beside.symm other.symm, named]
      exact h.thirds' beside id inside

omit formed in
/-- Where no identifier is used twice, a subgraph has the title it was opened with. -/
theorem lastTitle?_of_nodup (distinct : (w.openings.map (·.id)).Nodup) (ho : o ∈ w.openings) :
    w.lastTitle? o.id = some o.title := by
  unfold Walk.lastTitle?
  cases found : w.openings.reverse.find? fun b => b.id = o.id with
  | none =>
    have missed := List.find?_eq_none.mp found o (List.mem_reverse.mpr ho)
    exact (missed (decide_eq_true rfl)).elim
  | some b =>
    have here := List.find?_some found
    have same : b.id = o.id := of_decide_eq_true here
    have hb := List.mem_reverse.mp (List.mem_of_find?_eq_some found)
    rw [List.inj_on_of_nodup_map distinct hb ho same]
    rfl

/-- Where no identifier is used twice, no two subgraphs are mistaken for one another. -/
theorem unmistakable_of_nodup (distinct : (w.openings.map (·.id)).Nodup) (ho : o ∈ w.openings)
    (ho' : o' ∈ w.openings) (named : o.id = identOf o.title) (named' : o'.id = identOf o'.title)
    (other : o ≠ o') : Unmistakable w o o' := by
  have own : ∀ {a b : Opening} {id : Text}, a ∈ w.openings → b ∈ w.blocksAt id → b ≠ a →
      b.id ≠ a.id := by
    intro a b id ha hb third same
    have opened := (Walk.mem_openings_of_mem_blocksAt formed hb).1
    exact third (List.inj_on_of_nodup_map distinct opened ha same)
  refine ⟨?_, ?_, ?_, ?_, ?_⟩
  · rw [← named, ← named']
    exact fun same => other (List.inj_on_of_nodup_map distinct ho ho' same)
  · exact named ▸ lastTitle?_of_nodup distinct ho
  · exact named' ▸ lastTitle?_of_nodup distinct ho'
  · exact fun _ id _ b hb third => named' ▸ own ho' hb third
  · exact fun _ id _ b hb third => named ▸ own ho hb third

end Pairs

end FlowchartReader

open FlowchartReader

/--
**Which subgraphs of a flowchart stay apart.** The shapes of the scene are in the groups of the
subgraphs around their nodes, and two subgraphs that have nothing but titles are kept apart just if
these are unmistakable.
-/
theorem subgraphs_keptApart_iff {s header : Text} {ls : List Text}
    (seen : diagramLines (prepareForRendering s) = header :: ls)
    (kind : (words header).headD [] ∈ ["flowchart".toList, "graph".toList])
    {r : Rendering} (rendered : renderDiagram s = .ok r) :
    (r.elements.filter Element.isShape).map (·.groupIds) =
        (walkOf ls).nodeIds.map (walkOf ls).groupsOf ∧
    ∀ o ∈ (walkOf ls).openings, ∀ o' ∈ (walkOf ls).openings,
      o.titleOnly = true → o'.titleOnly = true → o.title ≠ [] → o'.title ≠ [] →
      (KeptApart (walkOf ls) r.groupLabels o o' ↔ Unmistakable (walkOf ls) o o') := by
  have flowchart : readDiagram s = FlowchartReader.read ls := by
    have keyword : ((words header).headD [] = "flowchart".toList ||
        (words header).headD [] = "graph".toList) = true := by
      simpa using kind
    unfold readDiagram
    rw [seen]
    exact if_pos keyword
  rw [renderDiagram, flowchart] at rendered
  cases read : FlowchartReader.read ls with
  | error e =>
    rw [read] at rendered
    cases rendered
  | ok d =>
    rw [read] at rendered
    cases rendered
    obtain ⟨st, rfl, tracks⟩ := tracks_of_read read
    have formed := walkOf_formed ls
    refine ⟨tracks.shapeGroups formed, ?_⟩
    intro o ho o' ho' only only' full full'
    exact keptApart_iff formed tracks ho ho' (formed.named o ho only full)
      (formed.named o' ho' only' full')

/-- A flowchart with two subgraphs beside one another, whose titles differ in length. -/
def partsText : Text :=
  "flowchart TD\nsubgraph 前端\nA --> B\nend\nsubgraph 后端服务\nC --> C\nend".toList

def partsLines : List Text :=
  ["subgraph 前端", "A --> B", "end", "subgraph 后端服务", "C --> C", "end"].map String.toList

def partsOpenings : List Opening :=
  [⟨0, "__".toList, "前端".toList, true, []⟩, ⟨1, "____".toList, "后端服务".toList, true, []⟩]

/-- They stay apart. -/
theorem subgraphs_keptApart_partsText :
    ∃ r, renderDiagram partsText = .ok r ∧
      (r.elements.filter Element.isShape).map (·.groupIds) =
        [["group-1".toList], ["group-1".toList], ["group-2".toList]] ∧
      ∀ o ∈ partsOpenings, ∀ o' ∈ partsOpenings, o ≠ o' →
        KeptApart (walkOf partsLines) r.groupLabels o o' := by
  have seen : diagramLines (prepareForRendering partsText) = "flowchart TD".toList :: partsLines := by
    decide +kernel
  have kind : (words "flowchart TD".toList).headD [] ∈ ["flowchart".toList, "graph".toList] := by
    decide
  have accepted : (readDiagram partsText).toOption.isSome = true := by decide +kernel
  obtain ⟨d, hd⟩ := Option.isSome_iff_exists.mp accepted
  have rendered : renderDiagram partsText = .ok (Layout.render d) := by
    rw [renderDiagram, eq_ok_of_toOption hd]
    rfl
  have openings : (walkOf partsLines).openings = partsOpenings := by decide +kernel
  have named : ∀ o ∈ partsOpenings, o.titleOnly = true ∧ o.title ≠ [] ∧ o.id = identOf o.title := by
    decide
  have distinct : ((walkOf partsLines).openings.map (·.id)).Nodup := by
    rw [openings]
    decide
  obtain ⟨shapes, apart⟩ := subgraphs_keptApart_iff seen kind rendered
  rw [openings] at apart
  refine ⟨_, rendered, shapes.trans (by decide +kernel), ?_⟩
  intro o ho o' ho' other
  obtain ⟨only, full, own⟩ := named o ho
  obtain ⟨only', full', own'⟩ := named o' ho'
  exact (apart o ho o' ho' only only' full full').mpr
    (unmistakable_of_nodup (walkOf_formed partsLines) distinct (openings ▸ ho) (openings ▸ ho')
      own own' other)

/-- A flowchart with two subgraphs beside one another, whose titles differ and have one length. -/
def mergedText : Text :=
  "flowchart TD\nsubgraph 中文\nA\nend\nsubgraph 日本\nB\nend".toList

def mergedLines : List Text :=
  ["subgraph 中文", "A", "end", "subgraph 日本", "B", "end"].map String.toList

def mergedOpenings : List Opening :=
  [⟨0, "__".toList, "中文".toList, true, []⟩, ⟨1, "__".toList, "日本".toList, true, []⟩]

def mergedDraft : Draft where
  nodes := [⟨['A'], ['A'], .box, [], ["__".toList]⟩, ⟨['B'], ['B'], .box, [], ["__".toList]⟩]
  titles := [("__".toList, "日本".toList)]

/-- **Two titles that come to one identifier.** The subgraphs share a group, the first title is
lost, and both nodes are in the group of both. -/
theorem titles_merged :
    diagramLines (prepareForRendering mergedText) = "flowchart TD".toList :: mergedLines ∧
    (walkOf mergedLines).openings = mergedOpenings ∧
    ∃ r, renderDiagram mergedText = .ok r ∧
      r.groupLabels = [("group-1".toList, "日本".toList)] ∧
      (r.elements.filter Element.isShape).map (·.groupIds) =
        [["group-1".toList], ["group-1".toList]] ∧
      ∀ o ∈ mergedOpenings, ∀ o' ∈ mergedOpenings,
        ¬ KeptApart (walkOf mergedLines) r.groupLabels o o' := by
  have read : readDiagram mergedText = .ok mergedDraft := by
    apply eq_ok_of_toOption
    decide +kernel
  have rendered : renderDiagram mergedText = .ok (Layout.render mergedDraft) := by
    rw [renderDiagram, read]
    rfl
  have one : ∀ o ∈ mergedOpenings, (walkOf mergedLines).groupOf o = "group-1".toList := by
    decide +kernel
  refine ⟨by decide +kernel, by decide +kernel, _, rendered, by decide +kernel, by decide +kernel, ?_⟩
  intro o ho o' ho' apart
  exact apart.groups ((one o ho).trans (one o' ho').symm)

end Drawbridge
