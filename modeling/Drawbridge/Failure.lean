import Drawbridge.Diagram.Draft

/-!
Everything that can fail in the service, as one type: failures of its own, failures of the
transport below it, and failures of the program in general. `text` is the wording of a failure and
`describe` the message that a user is shown for it.
-/

namespace Drawbridge

inductive TransportKind where
  | connection
  | timeout
  | readTimeout
  | request
  deriving DecidableEq, Repr

inductive GeneralKind where
  | value
  | key
  | index
  | runtime
  | system
  deriving DecidableEq, Repr

/-- A failure with what is known about it. -/
inductive Failure where
  /-- A stream message that cannot be decoded. -/
  | malformed (message span : Text)
  /-- An error that the stream reported. -/
  | reported (message : Text)
  | rejected (r : Rejection)
  /-- The model service answered with an error status. -/
  | badStatus (status : Int) (body : Text)
  | misconfigured (message : Text) (status : Int)
  | unspecified (args : List Json)
  | transport (kind : TransportKind) (args : List Json)
  | general (kind : GeneralKind) (args : List Json)
  | fault (f : Fault)

/-- The wording of a failure that carries arguments: none, one, or a bracketed list of them. -/
def argumentsText (one : Json → Text) : List Json → Text
  | [] => []
  | [a] => one a
  | args => '(' :: (Json.inspectItems args ++ [')'])

/-- The files that a failure of the system names behind its number and words, one or two. What
stands between them does not count here. -/
def filesText : List Json → Text
  | [] | .null :: _ => []
  | [a] | [a, _] | [a, _, .null] => ": ".toList ++ a.inspect
  | a :: _ :: b :: _ => ": ".toList ++ a.inspect ++ " -> ".toList ++ b.inspect

/-- The wording of a failure of the system, which may carry a number, words and files. -/
def systemText : List Json → Text
  | number :: words :: files =>
    if files.length ≤ 3 then
      "[Errno ".toList ++ number.display ++ "] ".toList ++ words.display ++ filesText files
    else argumentsText Json.display (number :: words :: files)
  | args => argumentsText Json.display args

namespace TransportKind

def name : TransportKind → Text
  | connection => "ConnectionError".toList
  | timeout => "Timeout".toList
  | readTimeout => "ReadTimeout".toList
  | request => "RequestException".toList

end TransportKind

namespace GeneralKind

def name : GeneralKind → Text
  | value => "ValueError".toList
  | key => "KeyError".toList
  | index => "IndexError".toList
  | runtime => "RuntimeError".toList
  | system => "OSError".toList

end GeneralKind

namespace Failure

/-- The name of a failure. A fault goes by the name of failures of values. -/
def name : Failure → Text
  | malformed .. => "ParseError".toList
  | reported _ => "ProtocolError".toList
  | rejected _ => "RenderError".toList
  | badStatus .. => "UpstreamError".toList
  | misconfigured .. => "ConfigError".toList
  | unspecified _ => "CanvasError".toList
  | transport k _ => k.name
  | general k _ => k.name
  | fault _ => GeneralKind.value.name

/-- The wording of an error status, with the body of the answer if there is one. -/
def badStatusText (status : Int) (body : Text) : Text :=
  "AI service returned an error (".toList ++ decimalInt status ++ "): ".toList ++
    (if body = [] then "Unknown error".toList else body)

def text : Failure → Text
  | malformed m _ | reported m | misconfigured m _ => m
  | rejected r => r.message
  | badStatus status body => badStatusText status body
  | unspecified args => argumentsText Json.display args
  | transport _ args | general .system args => systemText args
  | general .key args => argumentsText Json.inspect args
  | general _ args => argumentsText Json.display args
  | fault f => f.message?.getD []

/-- What a user is shown: the wording, else the default, else the name of the failure. -/
def describe (e : Failure) (default : Text := []) : Text :=
  if e.text ≠ [] then e.text else if default ≠ [] then default else e.name

def isTransport : Failure → Bool
  | transport .. => true
  | _ => false

def isValue : Failure → Bool
  | general .value _ => true
  | fault f => f.message?.isSome
  | _ => false

end Failure

end Drawbridge
