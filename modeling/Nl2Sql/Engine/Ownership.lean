import Nl2Sql.Engine.Models

/-!
# Identity-bound threads

`ownership.py`: the key of a thread in the checkpoint store, and the authorization that the configuration of a run carries.
-/

namespace Py

/-- A byte that `quote` keeps. -/
def isUnreserved (byte : UInt8) : Bool :=
  (Char.ofNat byte.toNat).isAlphanum || ['_', '.', '-', '~'].contains (Char.ofNat byte.toNat)

/-- A hexadecimal digit. -/
def hexDigit (n : Nat) : Char := Char.ofNat (if n < 10 then 48 + n else 55 + n)

/-- A byte, kept or as `%XX`. -/
def quoteByte (byte : UInt8) : List Char :=
  if isUnreserved byte then [Char.ofNat byte.toNat] else ['%', hexDigit (byte.toNat / 16), hexDigit (byte.toNat % 16)]

/-- `quote(text, safe="")`: of the bytes of the text in UTF-8. -/
def quote (text : String) : String := String.ofList (text.toByteArray.data.toList.flatMap quoteByte)

end Py

namespace Nl2Sql

open Py Engine

/-- What the key and the carrier of a request are made of. -/
structure RequestContext where
  userId : BoundedText 1 256
  threadId : Uuid
  authorization : Option AuthorizationContext

/-- `internal_thread_id`, in the one deployment scope there is. -/
def internalThreadId (context : RequestContext) : String := "default:" ++ quote context.userId.val ++ ":" ++ context.threadId.val

/-- `authorization.model_dump(mode="json")`. -/
def AuthorizationContext.toJson (a : AuthorizationContext) : Json :=
  .obj [("schema_version", .str "1.0"), ("authorization_revision", .str a.authorizationRevision.val), ("agent_enabled", .bool a.agentEnabled),
    ("scope_level", .str a.scopeLevel.text), ("allowed_scope_ids", .arr (a.allowedScopeIds.map .str))]

/-- `runtime_config`: the keys that are read again. -/
def runtimeConfig (context : RequestContext) : List (String × Json) :=
  [("thread_id", .str (internalThreadId context)), ("auth_user_id", .str context.userId.val)] ++
    context.authorization.toList.map fun a => ("authorization_context", a.toJson)

/-- `authorization_context_from_config`. -/
def authorizationContextFromConfig (configurable : List (String × Json)) : Option AuthorizationContext :=
  authorizationFromPayload (Json.member? "authorization_context" configurable)

/-- `evaluate_config_authorization`. -/
def evaluateConfigAuthorization (configurable : List (String × Json)) (authorizationRequired : Bool) (expectedRevision : Option String)
    (requestedScopeLevel : Option ScopeLevel) (requestedScopeId : Option String) : Option AuthorizationDecision :=
  match authorizationContextFromConfig configurable with
  | none => if authorizationRequired then some .deny else none
  | some context => some (evaluateAuthorization context expectedRevision requestedScopeLevel requestedScopeId)

end Nl2Sql
