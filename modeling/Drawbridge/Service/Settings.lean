import Drawbridge.Dictionary
import Drawbridge.Number.Reading

/-!
Settings of the service, read from an environment. A variable that is not set has a default; numbers
have to be well formed.
-/

namespace Drawbridge

structure Settings where
  apiUrl : Text := []
  apiKey : Text := []
  modelName : Text := []
  accessPassword : Text := []
  /-- The most characters a text to be turned into a diagram may have. -/
  maxChars : Int := 20000
  requestTimeout : Float := 300.0
  corsOrigins : List Text := ["http://localhost:3000".toList]
  logLevel : Text := "INFO".toList
  /-- Where callers of the service find it. -/
  baseUrl : Text := "http://localhost:8000".toList

namespace Settings

/-- The entries of a list between commas, trimmed, without empty ones. -/
def readList (s : Text) : List Text :=
  ((splitWhere (· = ',') s).map strip).filter (· ≠ [])

/-- The settings that an environment gives. -/
def ofEnvironment (env : Dictionary Text) : Except NumberError Settings := do
  let base : Settings := {}
  let get (key : String) (default : Text) : Text := (env.get? key.toList).getD default
  let maxChars ←
    match env.get? "MAX_CHARS".toList with
    | some s => readInt s
    | none => .ok base.maxChars
  let requestTimeout ←
    match env.get? "REQUEST_TIMEOUT".toList with
    | some s => readFloat s
    | none => .ok base.requestTimeout
  return {
    apiUrl := get "AI_API_URL" base.apiUrl
    apiKey := get "AI_API_KEY" base.apiKey
    modelName := get "AI_MODEL_NAME" base.modelName
    accessPassword := get "ACCESS_PASSWORD" base.accessPassword
    maxChars, requestTimeout
    corsOrigins := ((env.get? "CORS_ORIGINS".toList).map readList).getD base.corsOrigins
    logLevel := get "LOG_LEVEL" base.logLevel
    baseUrl := get "API_BASE_URL" base.baseUrl }

end Settings

end Drawbridge
