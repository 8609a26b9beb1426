import Drawbridge.Diagram.NodeToken

/-!
Edge chains of a flowchart, `A --> B -->|label| C`. `splitChain` cuts a line at its arrows. An arrow
counts only outside brackets and quotes; it takes the blanks around it and a label between pipes.
-/

namespace Drawbridge

def chainArrows : List Text :=
  ["-->".toList, "---".toList, "-.->".toList, "==>".toList]

/-- An arrow with its label, if it has one. -/
structure Link where
  arrow : Text
  label : Option Text
  deriving DecidableEq, Repr

/-- A label between pipes: a quoted one directly before the second pipe, or all up to it. -/
def takePipeLabel? : Text → Option (Text × Text)
  | '|' :: s =>
    let quoted := (NodeToken.takeQuoted? s).bind fun (label, r) =>
      (afterPrefix? ['|'] r).map fun r => (label, r)
    quoted.or (cutAt? '|' s)
  | _ => none

/-- A link at the start of a text, and what follows it and its blanks. -/
def takeLink? (s : Text) : Option (Link × Text) := do
  let (arrow, r) ← chainArrows.findSome? fun a => (afterPrefix? a (stripLeft s)).map fun r => (a, r)
  let r := stripLeft r
  return match takePipeLabel? r with
    | some (label, r) => ({ arrow, label := some label }, stripLeft r)
    | none => ({ arrow, label := none }, r)

/-- A line cut at its links: the token before the first, then each link with the token after it. -/
structure Chain where
  first : Text
  rest : List (Link × Text)
  deriving DecidableEq, Repr

def Chain.cons (c : Char) (ch : Chain) : Chain :=
  { ch with first := c :: ch.first }

/--
Cuts a text at its links. `skip` characters belong to a link that has been taken; `depth` counts
open brackets, and `quoted` tells whether a quote is open.
-/
def splitFrom (skip depth : Nat) (quoted : Bool) : Text → Chain
  | [] => ⟨[], []⟩
  | c :: s =>
    match skip with
    | skip + 1 => splitFrom skip depth quoted s
    | 0 =>
      if c = '"' then (splitFrom 0 depth (!quoted) s).cons c
      else if quoted then (splitFrom 0 depth quoted s).cons c
      else if c = '[' || c = '{' || c = '(' then (splitFrom 0 (depth + 1) quoted s).cons c
      else if c = ']' || c = '}' || c = ')' then (splitFrom 0 (depth - 1) quoted s).cons c
      else if depth = 0 then
        match takeLink? (c :: s) with
        | some (link, r) =>
          let ch := splitFrom (s.length - r.length) 0 false s
          ⟨[], (link, ch.first) :: ch.rest⟩
        | none => (splitFrom 0 depth quoted s).cons c
      else (splitFrom 0 depth quoted s).cons c

def splitChain (s : Text) : Chain :=
  splitFrom 0 0 false s

namespace Draft

/-- Enters a node token as it stands in a line; gives the name of the node. -/
def addTokenText (d : Draft) (number : Nat) (groups : List Text) (token : Text) :
    Except Rejection (Draft × Text) :=
  match NodeToken.read? (strip token) with
  | some t => .ok (d.addToken t groups, t.id)
  | none => .error (.badLine number token)

/-- Enters the tokens of a line; gives the names of their nodes. -/
def addTokens (d : Draft) (number : Nat) (groups : List Text) :
    List Text → Except Rejection (Draft × List Text)
  | [] => .ok (d, [])
  | token :: tokens => do
    let (d, id) ← d.addTokenText number groups token
    let (d, ids) ← d.addTokens number groups tokens
    return (d, id :: ids)

/-- Enters an edge for each link between a node and the next. -/
def addEdges (d : Draft) : List Text → List Link → Draft
  | source :: target :: ids, link :: links =>
    addEdges (d.addEdge source target (unquote (link.label.getD []))) (target :: ids) links
  | _, _ => d

/-- Enters a chain: first all its nodes, then its edges. -/
def addChain (d : Draft) (number : Nat) (groups : List Text) (ch : Chain) :
    Except Rejection Draft := do
  let (d, ids) ← d.addTokens number groups (ch.first :: ch.rest.map Prod.snd)
  return d.addEdges ids (ch.rest.map Prod.fst)

end Draft

end Drawbridge
