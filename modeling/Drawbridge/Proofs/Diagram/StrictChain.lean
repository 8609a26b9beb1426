import Drawbridge.Proofs.Diagram.Chain
import Drawbridge.Proofs.Diagram.Strict

/-!
Strict reading of edge chains. A position runs along the line and cuts it into parts, three for every
link (`Strict.Scan`); the nodes and labels are then picked by their places among the parts
(`Strict.addParts`). No position is ever beyond the end, and at every third place from the first
there is a token, so strict reading is `splitChain` and `Draft.addChain`.

* `takeLink?_suffix`: a link takes a beginning of what is left, so the position goes ahead;
* `Scan.exists_step`, `Scan.run_eq`: a step can be taken at every position inside the line and leaves
  the outcome as it is; hence `scan_eq`;
* `everyThird_tokens`, `everyThird_labels`: what stands at the places of nodes and labels;
* `addParts_eq`: a chain is entered as it was read.
-/

namespace Drawbridge

/-! ## Parts -/

/-- The parts of a link with the token after it. -/
def linkParts (l : Link × Text) : List (Option Text) :=
  [some l.1.arrow, l.1.label, some l.2]

/-- The parts of a chain in a row: its first token, then those of its links. -/
def Chain.parts (ch : Chain) : List (Option Text) :=
  some ch.first :: ch.rest.flatMap linkParts

theorem Chain.parts_cons (first token : Text) (link : Link) (rest : List (Link × Text)) :
    Chain.parts ⟨first, (link, token) :: rest⟩ =
      [some first, some link.arrow, link.label] ++ Chain.parts ⟨token, rest⟩ := (rfl)

namespace Strict

/-! ## What a link takes -/

theorem takeQuoted?_suffix {s label r : Text} (h : NodeToken.takeQuoted? s = some (label, r)) :
    r <:+ s := by
  unfold NodeToken.takeQuoted? at h
  split at h
  · obtain ⟨⟨a, b⟩, cut, same⟩ := Option.map_eq_some_iff.mp h
    cases same
    rw [eq_append_of_cutAt? cut]
    exact ⟨'"' :: (a ++ ['"']), by simp⟩
  · cases h

theorem takePipeLabel?_suffix {s label r : Text} (h : takePipeLabel? s = some (label, r)) :
    r <:+ s := by
  unfold takePipeLabel? at h
  split at h
  · rename_i s
    rw [Option.or_eq_some_iff] at h
    rcases h with quoted | ⟨-, plain⟩
    · obtain ⟨⟨a, b⟩, taken, closed⟩ := Option.bind_eq_some_iff.mp quoted
      obtain ⟨b', rest, same⟩ := Option.map_eq_some_iff.mp closed
      cases same
      have closing : r <:+ b := ⟨['|'], (eq_append_of_afterPrefix? rest).symm⟩
      exact (closing.trans (takeQuoted?_suffix taken)).trans (List.suffix_cons '|' s)
    · rw [eq_append_of_cutAt? plain]
      exact ⟨'|' :: (label ++ ['|']), by simp⟩
  · cases h

/-- **A link takes a beginning of the text.** It is not empty, for it holds an arrow. -/
theorem takeLink?_suffix {s r : Text} {link : Link} (h : takeLink? s = some (link, r)) :
    r <:+ s ∧ r.length < s.length := by
  unfold takeLink? at h
  obtain ⟨⟨arrow, behind⟩, found, rest⟩ := Option.bind_eq_some_iff.mp h
  obtain ⟨a, ha, after⟩ := List.exists_of_findSome?_eq_some found
  obtain ⟨r', stands, same⟩ := Option.map_eq_some_iff.mp after
  cases same
  have written : stripLeft s = arrow ++ behind := eq_append_of_afterPrefix? stands
  have blanks : stripLeft s <:+ s := List.dropWhile_suffix _
  have after : r <:+ behind := by
    have spaces : stripLeft behind <:+ behind := List.dropWhile_suffix _
    dsimp only at rest
    split at rest
    · rename_i label r' piped
      cases rest
      exact ((List.dropWhile_suffix _).trans (takePipeLabel?_suffix piped)).trans spaces
    · cases rest
      exact spaces
  have arrow_pos : 0 < arrow.length := by
    have all : ∀ a ∈ chainArrows, 0 < a.length := by decide
    exact all arrow ha
  have within : behind <:+ s := (List.suffix_append arrow behind).trans (written ▸ blanks)
  refine ⟨after.trans within, ?_⟩
  have lengths := blanks.length_le
  rw [written, List.length_append] at lengths
  have := after.length_le
  omega

/-- Behind a link, cutting goes on with what the link has left. -/
theorem splitFrom_taken {c : Char} {s r : Text} {link : Link}
    (h : takeLink? (c :: s) = some (link, r)) :
    splitFrom (s.length - r.length) 0 false s = splitFrom 0 0 false r := by
  obtain ⟨suffix, shorter⟩ := takeLink?_suffix h
  rcases List.suffix_cons_iff.mp suffix with whole | behind
  · rw [whole] at shorter
    exact (Nat.lt_irrefl _ shorter).elim
  · rw [splitFrom_skip, ← List.suffix_iff_eq_drop.mp behind]

/-! ## Scanning a line -/

def slice (s : Text) (i j : Nat) : Text :=
  (s.drop i).take (j - i)

theorem slice_self (s : Text) (i : Nat) : slice s i i = [] := by
  rw [slice, Nat.sub_self, List.take_zero]

theorem slice_succ {s : Text} {i j : Nat} {c : Char} (hi : i ≤ j) (hj : s[j]? = some c) :
    slice s i (j + 1) = slice s i j ++ [c] := by
  have next : (s.drop i)[j - i]? = some c := by
    rw [List.getElem?_drop, Nat.add_sub_cancel' hi, hj]
  rw [slice, slice, Nat.succ_sub hi, List.take_add_one, next]
  rfl

theorem slice_drop {s : Text} {i j : Nat} (hi : i ≤ j) : slice s i j ++ s.drop j = s.drop i := by
  have behind : s.drop j = (s.drop i).drop (j - i) := by
    rw [List.drop_drop, Nat.add_sub_cancel' hi]
  rw [slice, behind, List.take_append_drop]

/-- Where a scan stands: the token that is being read begins at `start`, `place` comes next. -/
structure Scan where
  start : Nat := 0
  place : Nat := 0
  depth : Nat := 0
  quoted : Bool := false
  parts : List (Option Text) := []

namespace Scan

/-- Where a scan stands after a character. A link ends the token and adds three parts. -/
def after (text : Text) (s : Scan) (c : Char) : Scan :=
  let next := { s with place := s.place + 1 }
  if c = '"' then { next with quoted := !s.quoted }
  else if s.quoted then next
  else if c = '[' || c = '\x7b' || c = '(' then { next with depth := s.depth + 1 }
  else if c = ']' || c = '\x7d' || c = ')' then { next with depth := s.depth - 1 }
  else if s.depth = 0 then
    match takeLink? (text.drop s.place) with
    | some (link, r) =>
      let stop := text.length - r.length
      let token := slice text s.start s.place
      { s with
        start := stop, place := stop
        parts := s.parts ++ [some token, some link.arrow, link.label] }
    | none => next
  else next

def step (text : Text) (s : Scan) : Except Failure Scan :=
  (item text s.place).map (s.after text)

variable {text : Text} {s s' : Scan}

/-- A scan goes ahead. -/
theorem place_lt_after (inside : s.place < text.length) (c : Char) :
    s.place < (s.after text c).place := by
  have one : s.place < s.place + 1 := Nat.lt_succ_self s.place
  unfold after
  dsimp only
  split
  · exact one
  split
  · exact one
  split
  · exact one
  split
  · exact one
  split
  · split
    · rename_i link r taken
      have shorter := (takeLink?_suffix taken).2
      rw [List.length_drop] at shorter
      show s.place < text.length - r.length
      omega
    · exact one
  · exact one

theorem place_lt_of_step (inside : s.place < text.length) (h : s.step text = .ok s') :
    s.place < s'.place := by
  rw [step, item_ok (List.getElem?_eq_getElem inside)] at h
  cases h
  exact place_lt_after inside _

/-- Goes on to the end of the line; what is left there is the last token. -/
def run (text : Text) (s : Scan) : Except Failure (List (Option Text)) :=
  if _ : s.place < text.length then
    match _ : s.step text with
    | .ok s' => s'.run text
    | .error e => .error e
  else .ok (s.parts ++ [some (text.drop s.start)])
termination_by text.length - s.place
decreasing_by
  have ahead := place_lt_of_step ‹s.place < text.length› ‹s.step text = .ok s'›
  omega

/-- The chain that is left to be read: the token is completed by what comes next. -/
def chain (text : Text) (s : Scan) : Chain :=
  (splitFrom 0 s.depth s.quoted (text.drop s.place)).prepend (slice text s.start s.place)

/-- All parts, those that are complete and those that are left. -/
def outcome (text : Text) (s : Scan) : List (Option Text) :=
  s.parts ++ (s.chain text).parts

/-- A scan has gone ahead; the outcome is the same. -/
structure Reaches (text : Text) (s s' : Scan) : Prop where
  ordered : s'.start ≤ s'.place
  bounded : s'.place ≤ text.length
  outcome : s'.outcome text = s.outcome text

theorem reaches_next (ordered : s.start ≤ s.place) {c : Char} (hc : text[s.place]? = some c)
    {depth : Nat} {quoted : Bool}
    (passed : splitFrom 0 s.depth s.quoted (text.drop s.place) =
      (splitFrom 0 depth quoted (text.drop (s.place + 1))).cons c) :
    s.Reaches text { s with place := s.place + 1, depth, quoted } where
  ordered := Nat.le_succ_of_le ordered
  bounded := (List.getElem?_eq_some_iff.mp hc).1
  outcome := by
    have longer := slice_succ ordered hc
    simp only [Scan.outcome, chain, passed, longer, Chain.prepend, Chain.cons, List.append_assoc,
      List.singleton_append]

theorem reaches_behind (outside : s.depth = 0) (unquoted : s.quoted = false) {link : Link}
    {r : Text} (taken : takeLink? (text.drop s.place) = some (link, r))
    (cut : splitFrom 0 0 false (text.drop s.place) =
      ⟨[], (link, (splitFrom 0 0 false r).first) :: (splitFrom 0 0 false r).rest⟩) :
    s.Reaches text { s with
      start := text.length - r.length, place := text.length - r.length
      parts := s.parts ++ [some (slice text s.start s.place), some link.arrow, link.label] } where
  ordered := Nat.le_refl _
  bounded := Nat.sub_le _ _
  outcome := by
    have behind : text.drop (text.length - r.length) = r :=
      (List.suffix_iff_eq_drop.mp ((takeLink?_suffix taken).1.trans (List.drop_suffix _ _))).symm
    simp only [Scan.outcome, chain, outside, unquoted, behind, slice_self, cut]
    rw [List.append_assoc]
    show _ = s.parts ++ Chain.parts ⟨slice text s.start s.place ++ [], _ :: _⟩
    rw [Chain.parts_cons, List.append_nil]
    rfl

/-- **Inside the text a step can be taken, and it leaves the outcome as it is.** -/
theorem exists_step (ordered : s.start ≤ s.place) (inside : s.place < text.length) :
    ∃ s', s.step text = .ok s' ∧ s.Reaches text s' := by
  have hc : text[s.place]? = some text[s.place] := List.getElem?_eq_getElem inside
  generalize text[s.place] = c at hc
  have here : text.drop s.place = c :: text.drop (s.place + 1) := by
    rw [List.drop_eq_getElem_cons inside]
    exact congrArg (· :: _) (Option.some.inj ((List.getElem?_eq_getElem inside).symm.trans hc))
  refine ⟨s.after text c, by rw [step, item_ok hc]; rfl, ?_⟩
  have rest := splitFrom_cons s.depth s.quoted c (text.drop (s.place + 1))
  rw [← here] at rest
  -- The character decides alike about the step and about the chain that is left.
  unfold after
  dsimp only
  split at rest <;> rename_i quote
  · rw [if_pos quote]
    exact reaches_next ordered hc rest
  rw [if_neg quote]
  split at rest <;> rename_i inQuote
  · rw [if_pos inQuote]
    exact reaches_next ordered hc rest
  rw [if_neg inQuote]
  split at rest <;> rename_i opens
  · rw [if_pos opens]
    exact reaches_next ordered hc rest
  rw [if_neg opens]
  split at rest <;> rename_i closes
  · rw [if_pos closes]
    exact reaches_next ordered hc rest
  rw [if_neg closes]
  split at rest <;> rename_i outside
  · rw [if_pos outside]
    have unquoted : s.quoted = false := Bool.eq_false_iff.mpr inQuote
    cases taken : takeLink? (text.drop s.place) with
    | none =>
      rw [taken] at rest
      exact reaches_next ordered hc rest
    | some found =>
      obtain ⟨link, r⟩ := found
      have behind := splitFrom_taken (here ▸ taken)
      rw [taken, outside, unquoted] at rest
      simp only [behind] at rest
      exact reaches_behind outside unquoted taken rest
  · rw [if_neg outside]
    exact reaches_next ordered hc rest

/-- **A scan comes to the end of the text with all the parts.** -/
theorem run_eq (ordered : s.start ≤ s.place) (bounded : s.place ≤ text.length) :
    s.run text = .ok (s.outcome text) := by
  fun_induction Scan.run text s with
  | case1 s inside s' taken ih =>
    obtain ⟨s'', taken', reached⟩ := exists_step ordered inside
    obtain rfl : s' = s'' := Except.ok.inj (taken.symm.trans taken')
    rw [ih reached.ordered reached.bounded, reached.outcome]
  | case2 s inside e failed =>
    obtain ⟨s', taken, -⟩ := exists_step ordered inside
    rw [failed] at taken
    cases taken
  | case3 s atEnd =>
    have nothing : text.drop s.place = [] := List.drop_eq_nil_of_le (Nat.not_lt.mp atEnd)
    have rest := slice_drop (s := text) ordered
    rw [nothing, List.append_nil] at rest
    simp only [outcome, chain, nothing, rest]
    show Except.ok _ = Except.ok (_ ++ [some (text.drop s.start ++ [])])
    rw [List.append_nil]

end Scan

/-- Cuts a line at its links. -/
def scan (text : Text) : Except Failure (List (Option Text)) :=
  Scan.run text {}

theorem scan_eq (text : Text) : scan text = .ok (splitChain text).parts :=
  Scan.run_eq (Nat.le_refl 0) (Nat.zero_le text.length)

/-! ## Entering the parts of a chain -/

def everyThird (start bound : Nat) : List Nat :=
  List.range' start ((bound + 2 - start) / 3) 3

/-- Enters the tokens at some places among the parts; gives the names of their nodes. -/
def addNodesAt (d : Draft) (number : Nat) (groups : List Text) (parts : List (Option Text)) :
    List Nat → Except Failure (Draft × List Text)
  | [] => .ok (d, [])
  | i :: is => do
    let part ← item parts i
    let written ← given part
    let (d, id) ← addNode d number groups written
    let (d, ids) ← addNodesAt d number groups parts is
    return (d, id :: ids)

/-- Reads the label at a place among the parts. -/
def labelAt (parts : List (Option Text)) (i : Nat) : Except Failure Text := do
  let part ← item parts i
  if part.getD [] = [] then return []
  else
    let written ← given part
    unquote written

/-- Enters a chain by its parts: a node stands at every third place, and so does a label. -/
def addParts (d : Draft) (number : Nat) (groups : List Text) (parts : List (Option Text))
    (line : Text) : Except Failure Draft :=
  if (parts.length - 1) % 3 ≠ 0 then .error (.rejected (.badLine number line))
  else do
    let (d, ids) ← addNodesAt d number groups parts (everyThird 0 parts.length)
    let labels ← (everyThird 2 parts.length).mapM (labelAt parts)
    return ((ids.zip ids.tail).zip labels).foldl
      (fun d ((source, target), label) => d.addEdge source target label) d

/-- In every three parts, a place holds what it holds in the parts of a link. -/
theorem getElem?_linkParts (before : List (Option Text)) (rest : List (Link × Text)) {k : Nat}
    (hk : k < 3) :
    (List.range' (before.length + k) rest.length 3).map
        (fun i => (before ++ rest.flatMap linkParts)[i]?) = rest.map fun l => (linkParts l)[k]? := by
  induction rest generalizing before with
  | nil => rfl
  | cons l rest ih =>
    have here : (before ++ (linkParts l ++ rest.flatMap linkParts))[before.length + k]? =
        (linkParts l)[k]? := by
      rw [List.getElem?_append_right (Nat.le_add_right _ k), Nat.add_sub_cancel_left]
      exact List.getElem?_append_left hk
    have later := ih (before ++ linkParts l)
    have next : before.length + k + 3 = (before ++ linkParts l).length + k := by
      rw [List.length_append, Nat.add_right_comm]
      rfl
    rw [List.append_assoc, ← next] at later
    rw [List.length_cons, List.range'_succ, List.map_cons, List.map_cons, List.flatMap_cons, here,
      later]

theorem length_parts (ch : Chain) : ch.parts.length = 3 * ch.rest.length + 1 := by
  have blocks : ∀ rest : List (Link × Text), (rest.flatMap linkParts).length = 3 * rest.length := by
    intro rest
    induction rest with
    | nil => rfl
    | cons l rest ih =>
      rw [List.flatMap_cons, List.length_append, ih, List.length_cons, Nat.mul_succ, Nat.add_comm]
      rfl
  rw [Chain.parts, List.length_cons, blocks]

/-- At every third place stands a token. -/
theorem everyThird_tokens (ch : Chain) :
    (everyThird 0 ch.parts.length).map (fun i => ch.parts[i]?) =
      (ch.first :: ch.rest.map Prod.snd).map fun token => some (some token) := by
  have places : everyThird 0 ch.parts.length = 0 :: List.range' 3 ch.rest.length 3 := by
    have count : (ch.parts.length + 2 - 0) / 3 = ch.rest.length + 1 := by
      rw [length_parts]
      omega
    rw [everyThird, count, List.range'_succ]
  have others := getElem?_linkParts [some ch.first] ch.rest (k := 2) (by decide)
  rw [places, List.map_cons, List.map_cons, List.map_map]
  exact congrArg (some (some ch.first) :: ·) others

/-- So does the label of a link, if there is one. -/
theorem everyThird_labels (ch : Chain) :
    (everyThird 2 ch.parts.length).map (fun i => ch.parts[i]?) =
      ((ch.rest.map Prod.fst).map (·.label)).map some := by
  have places : everyThird 2 ch.parts.length = List.range' 2 ch.rest.length 3 := by
    have count : (ch.parts.length + 2 - 2) / 3 = ch.rest.length := by
      rw [length_parts]
      omega
    rw [everyThird, count]
  rw [places, List.map_map, List.map_map]
  exact getElem?_linkParts [some ch.first] ch.rest (k := 1) (by decide)

/-- Nodes are entered as their tokens are read. -/
theorem addNodesAt_eq (d : Draft) (number : Nat) (groups : List Text) {parts : List (Option Text)}
    {is : List Nat} {tokens : List Text}
    (stand : is.map (fun i => parts[i]?) = tokens.map fun token => some (some token)) :
    addNodesAt d number groups parts is = rejecting (d.addTokens number groups tokens) := by
  induction is generalizing d tokens with
  | nil =>
    obtain rfl := List.map_eq_nil_iff.mp stand.symm
    rfl
  | cons i is ih =>
    cases tokens with
    | nil => cases stand
    | cons token tokens =>
      obtain ⟨here, others⟩ := List.cons.inj stand
      rw [addNodesAt, item_ok here, Draft.addTokens, rejecting_bind]
      show (addNode d number groups token >>= _) = _
      rw [addNode_eq]
      congr 1
      funext (d, id)
      dsimp only
      rw [ih d others, rejecting_bind]
      rfl

theorem labelAt_eq {parts : List (Option Text)} {i : Nat} {label : Option Text}
    (stands : parts[i]? = some label) :
    labelAt parts i = .ok (Drawbridge.unquote (label.getD [])) := by
  rw [labelAt, item_ok stands]
  show (if label.getD [] = [] then _ else _) = _
  split
  · rename_i empty
    rw [empty]
    rfl
  · cases label with
    | none => contradiction
    | some l => exact unquote_eq l

theorem labelsAt_eq {parts : List (Option Text)} {is : List Nat} {labels : List (Option Text)}
    (stand : is.map (fun i => parts[i]?) = labels.map some) :
    is.mapM (labelAt parts) = .ok (labels.map fun l => Drawbridge.unquote (l.getD [])) := by
  induction is generalizing labels with
  | nil =>
    obtain rfl := List.map_eq_nil_iff.mp stand.symm
    rfl
  | cons i is ih =>
    cases labels with
    | nil => cases stand
    | cons label labels =>
      obtain ⟨here, others⟩ := List.cons.inj stand
      rw [List.mapM_cons, labelAt_eq here, ih others]
      rfl

theorem addEdges_eq_foldl (d : Draft) (ids : List Text) (links : List Link) :
    d.addEdges ids links =
      ((ids.zip ids.tail).zip (links.map fun l => Drawbridge.unquote (l.label.getD []))).foldl
        (fun d ((source, target), label) => d.addEdge source target label) d := by
  induction links generalizing d ids with
  | nil =>
    rw [List.map_nil, List.zip_nil_right]
    unfold Draft.addEdges
    split <;> trivial
  | cons link links ih =>
    match ids with
    | [] | [_] => rfl
    | source :: target :: ids =>
      exact ih (d.addEdge source target (Drawbridge.unquote (link.label.getD []))) (target :: ids)

/-- **A chain is entered as it was read.** -/
theorem addParts_eq (d : Draft) (number : Nat) (groups : List Text) (ch : Chain) (line : Text) :
    addParts d number groups ch.parts line = rejecting (d.addChain number groups ch) := by
  have whole : ¬ (ch.parts.length - 1) % 3 ≠ 0 := by
    rw [length_parts, Nat.add_sub_cancel, Nat.mul_mod_right]
    exact fun h => h rfl
  have labels : (everyThird 2 ch.parts.length).mapM (labelAt ch.parts) =
      .ok ((ch.rest.map Prod.fst).map fun l => Drawbridge.unquote (l.label.getD [])) := by
    rw [labelsAt_eq (everyThird_labels ch), List.map_map]
    rfl
  rw [addParts, if_neg whole, Draft.addChain, rejecting_bind,
    addNodesAt_eq d number groups (everyThird_tokens ch)]
  congr 1
  funext (d, ids)
  dsimp only
  rw [labels, addEdges_eq_foldl]
  rfl

end Strict

end Drawbridge
