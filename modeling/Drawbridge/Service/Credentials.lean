import Drawbridge.Failure
import Drawbridge.Service.Settings

/-!
Which model is used, and with whose key. A caller's own complete configuration is used as it is.
Otherwise the configuration of the service is used, of which a caller may choose the model; a
password that a caller gives has to be the right one.
-/

namespace Drawbridge

/-- Where a model is found, the key to it, and its name. -/
structure Credentials where
  apiUrl : Text
  apiKey : Text
  modelName : Text
  deriving DecidableEq, Repr

namespace Credentials

def isComplete (c : Credentials) : Bool :=
  c.apiUrl ≠ [] && c.apiKey ≠ [] && c.modelName ≠ []

/-- A field of a configuration as text; an absent one is empty. -/
def readField (j : Json) (key : String) : Text :=
  let v := j.fieldOrNull key.toList
  if v.isTruthy then v.display else []

/-- The configuration that a caller sends along. -/
def ofJson (j : Json) : Except Fault Credentials :=
  if j.isTruthy && !j.isObject then .error .noSuchMember
  else
    .ok ⟨readField j "apiUrl", readField j "apiKey", readField j "modelName"⟩

def wrongPassword : Failure :=
  .misconfigured "Invalid access password".toList 401

def incomplete : Failure :=
  .misconfigured
    "AI configuration is incomplete: set the API URL, API key and model name".toList 400

/-- The configuration of the service with a model that a caller may have chosen. -/
def ofSettings (settings : Settings) (model : Option Text) : Credentials :=
  { apiUrl := settings.apiUrl, apiKey := settings.apiKey,
    modelName := if model.getD [] = [] then settings.modelName else model.getD [] }

def resolve (settings : Settings) (requested : Json) (password model : Option Text) :
    Except Failure Credentials := do
  let own ← (ofJson requested).mapError Failure.fault
  let secret := password.getD []
  if own.isComplete then return own
  else if secret ≠ [] && (settings.accessPassword = [] || secret ≠ settings.accessPassword) then
    .error wrongPassword
  else if (ofSettings settings model).isComplete then return ofSettings settings model
  else .error incomplete

end Credentials

end Drawbridge
