import Mathlib
import Roze.Context.Propagation
import Roze.Library.JsonText

/-!
# Errors

The kinds of errors that a service answers with. Each has a name, a code and a message, which is
taken from a table of the locale when the error has none of its own. A fallback carries a whole
response: status, body and headers.
-/

namespace Roze

open Roze.Library

/-- The errors of a service. -/
inductive RozeError (Number : Type) where
  | badRequest (msg : String)
  | conflict (msg : String)
  | failedPrecondition (msg : String)
  | unauthorized
  | forbidden
  | rateLimited (retryAfterSeconds : UInt64)
  | notFound (msg : String)
  | unavailable (msg : String)
  | internal (msg : String)
  | fallback (status : UInt16) (body : Option (Json.Value Number)) (headers : StringMap)

/-! ## Messages -/

def normalizeLocale (raw : String) : Option String :=
  let normalized := String.ofList ((trim raw).toList.map (fun ch => if ch = '_' then '-' else ch))
  if normalized = "" ∨ normalized = "*" then none
  else
    let lower := toAsciiLowercase normalized
    if lower = "zh" ∨ beginsWith "zh-cn" lower ∨ beginsWith "zh-hans" lower then some "zh-CN"
    else if lower = "en" ∨ beginsWith "en-us" lower ∨ beginsWith "en-" lower then some "en-US"
    else none

def localizedErrorMessage (kind locale : String) : String :=
  match normalizeLocale locale with
  | some "zh-CN" =>
    match kind with
    | "bad_request" => "请求参数错误"
    | "conflict" => "资源冲突"
    | "failed_precondition" => "前置条件不满足"
    | "unauthorized" => "未认证或登录已失效"
    | "forbidden" => "无权限访问"
    | "not_found" => "资源不存在"
    | _ => "服务器内部错误"
  | _ =>
    match kind with
    | "bad_request" => "bad request"
    | "conflict" => "conflict"
    | "failed_precondition" => "failed precondition"
    | "unauthorized" => "unauthorized"
    | "forbidden" => "forbidden"
    | "rate_limited" => "rate limited"
    | "not_found" => "not found"
    | "unavailable" => "service unavailable"
    | "fallback" => "fallback"
    | _ => "internal server error"

/-- The text of a string value. -/
def asStr {Number : Type} : Json Number → Option String
  | .string text => some text
  | _ => none

def fallbackMessage {Number : Type} (body : Option (Json.Value Number)) : String :=
  let member (name : String) := body.bind (fun body => (body.json.get? name).bind asStr)
  ((member "message").or (member "msg")).getD "fallback"

namespace RozeError

variable {Number : Type}

/-- The name of the kind. -/
def kind : RozeError Number → String
  | .badRequest _ => "bad_request"
  | .conflict _ => "conflict"
  | .failedPrecondition _ => "failed_precondition"
  | .unauthorized => "unauthorized"
  | .forbidden => "forbidden"
  | .rateLimited _ => "rate_limited"
  | .notFound _ => "not_found"
  | .unavailable _ => "unavailable"
  | .internal _ => "internal"
  | .fallback .. => "fallback"

/-- The code, mostly that of HTTP. -/
def code : RozeError Number → Int
  | .badRequest _ => 400
  | .conflict _ => 409
  | .failedPrecondition _ => 412
  | .unauthorized => 401
  | .forbidden => 403
  | .rateLimited _ => 429
  | .notFound _ => 404
  | .unavailable _ => 503
  | .internal _ => 500
  | .fallback status _ _ => status.toNat

/-- The message in a locale. -/
def messageI18n (error : RozeError Number) (locale : String) : String :=
  let own (msg : String) := if msg ≠ "" then msg else localizedErrorMessage error.kind locale
  match error with
  | .badRequest msg | .conflict msg | .failedPrecondition msg | .notFound msg | .unavailable msg
  | .internal msg => own msg
  | .fallback _ body _ => fallbackMessage body
  | .unauthorized | .forbidden | .rateLimited _ => localizedErrorMessage error.kind locale

/-- The seconds that a text of a header gives. -/
def parseSeconds (text : String) : Option UInt64 := (parseUnsigned (2 ^ 64) text).map UInt64.ofNat

/-- The seconds to wait, of a limit or a fallback. -/
def retryAfterSeconds : RozeError Number → Option UInt64
  | .rateLimited seconds => some seconds
  | .fallback _ _ headers => (headers.get? "retry-after").bind parseSeconds
  | _ => none

/-- The body of an answer that the service is unavailable for now. -/
def unavailableBody [NatCast Number] (message : String) : Json.Value Number where
  json := .object [("code", .number ((503 : Nat) : Number)), ("msg", .string message), ("data", .null)]
  distinct := by simp [Json.Distinct]

/-- The time is in whole seconds here. -/
def unavailableWithRetryAfter [NatCast Number] (message : String) (seconds : UInt64) :
    RozeError Number :=
  .fallback 503 (some (unavailableBody message))
    (.collect _ [("retry-after", toString (max seconds 1))])

end RozeError

end Roze
