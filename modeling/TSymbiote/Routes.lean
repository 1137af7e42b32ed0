import TSymbiote.Shared.Middleware
import TSymbiote.WebUI.Auth

/-! # Routes behind authentication

Outside of dev mode both servers start the chain of every route with the request
logger and their check of the caller, so that whatever is added later, and the
final handler, is reached only through that check.
-/

namespace TSymbiote.Routes

open Shared Handlers

/-- `uiAuth` as a middleware. -/
def uiAuth (allowedUsers : List String) : Middleware := fun r =>
  .perform (.whoIs r.request.remoteAddr) fun resp =>
    match WebUI.uiAuth allowedUsers (Except.map WhoIs.loginName resp), resp with
    | .next userName, _ => .next { r with userName } .ret
    | .forbidden, .ok resp => setStatusCode { r with userName := resp.loginName } 403 .ret
    | _, _ => setStatusCode r 500 .ret

def adapterAuth (allowedTag : String) : Middleware := fun r =>
  .perform (.whoIs r.request.remoteAddr) fun
    | .error _ => setStatusCode r 500 .ret
    | .ok resp => if !resp.tags.contains allowedTag then setStatusCode r 403 .ret else .next r .ret

inductive Server where
  | webUI (allowedUsers : List String)
  | adapter (allowedTag : String)
  deriving DecidableEq, Repr

/-- The calls on a chain between `Route` and its registration. -/
inductive Call where
  | add (i : Middleware)
  | get
  | post
  | websocket

def Call.middleware : Call → Middleware
  | .add i => i
  | .get => getRequest
  | .post => postRequest
  | .websocket => websocketRequest

inductive Registration where
  | register (final : HTTPRequest → HandlerBody)
  | registerSimple (final : Request → Code Request Effect Effect.Answer)

variable {σ : Type} {world : World Effect Effect.Answer σ}

/-- The handler at the end of the chain. -/
def Registration.final (world : World Effect Effect.Answer σ) : Registration → HandlerFunc σ
  | .register final => finish world final
  | .registerSimple final => finish world (MiddlewareChain.revertRequest final)

end TSymbiote.Routes
