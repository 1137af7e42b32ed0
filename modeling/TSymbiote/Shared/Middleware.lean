import TSymbiote.Lib.Handlers

/-! # The middleware chain

Routes are built from a chain of middlewares around a final handler. Registering
a route folds the chain from its end, so that the middleware added first is the
outermost.
-/

namespace TSymbiote.Shared

open Handlers

structure Request where
  remoteAddr : String
  method : String
  header : List (String × List String)
  deriving DecidableEq, Repr

/-- `ws` is whether the connection has been upgraded. -/
structure HTTPRequest where
  request : Request
  ws : Bool
  statusCode : Nat
  traceID : String
  userName : String
  deriving DecidableEq, Repr

/-- What the local client knows of a remote address. -/
structure WhoIs where
  loginName : String
  tags : List String
  deriving DecidableEq, Repr

/-- `other` stands for whatever else the handlers of a route do. -/
inductive Effect where
  | newUUID
  | whoIs (remoteAddr : String)
  | setHeader (key value : String)
  | addHeader (key value : String)
  | writeHeader (statusCode : Nat)
  | closeBody
  | upgrade
  | setPingHandler
  | logRequest (remoteAddr method : String) (status : Nat)
  | other (action : String)
  deriving DecidableEq, Repr

def Effect.Answer : Effect → Type
  | .newUUID => String
  | .whoIs _ => Except String WhoIs
  | .upgrade => Bool
  | .other _ => String
  | _ => Unit

abbrev HandlerBody := Code HTTPRequest Effect Effect.Answer

abbrev Middleware := HTTPRequest → HandlerBody

abbrev HandlerFunc (σ : Type) := Handler HTTPRequest Effect Effect.Answer σ

def setStatusCode (r : HTTPRequest) (statusCode : Nat) (rest : HTTPRequest → HandlerBody) :
    HandlerBody :=
  .perform (.writeHeader statusCode) fun _ => rest { r with statusCode }

/-- `Header.Get` on a key in its canonical form. -/
def Request.get (r : Request) (key : String) : String :=
  ((r.header.lookup key).getD []).headD ""

/-- `defer r.Body.Close()` -/
def closeBody (r : HTTPRequest) : HandlerBody := .perform .closeBody fun _ => .ret r

def postRequest : Middleware := fun r =>
  .perform (.setHeader "Access-Control-Allow-Origin" "*") fun _ =>
  .perform (.setHeader "Access-Control-Allow-Methods" "POST") fun _ =>
  .perform (.setHeader "Access-Control-Allow-Headers" "Content-Type") fun _ =>
    if r.request.method = "OPTIONS" then setStatusCode r 200 closeBody
    else if r.request.method ≠ "POST" then setStatusCode r 405 closeBody
    else .next r closeBody

def getRequest : Middleware := fun r =>
  .perform (.setHeader "Access-Control-Allow-Origin" "*") fun _ =>
  .perform (.setHeader "Access-Control-Allow-Methods" "GET") fun _ =>
    if r.request.method ≠ "GET" then setStatusCode r 405 closeBody else .next r closeBody

def websocketRequest : Middleware := fun r =>
  if ((r.request.header.lookup "Upgrade").getD []).contains "websocket" then
    .perform .upgrade fun
      | true => .perform .setPingHandler fun _ => .next { r with ws := true } closeBody
      | false => setStatusCode r 500 closeBody
  else .perform (.addHeader "Upgrade" "websocket") fun _ => setStatusCode r 426 closeBody

structure MiddlewareChain where
  middleware : List Middleware

namespace MiddlewareChain

def add (m : MiddlewareChain) (i : Middleware) : MiddlewareChain where
  middleware := m.middleware ++ [i]

def post (m : MiddlewareChain) : MiddlewareChain := m.add postRequest

def get (m : MiddlewareChain) : MiddlewareChain := m.add getRequest

def websocket (m : MiddlewareChain) : MiddlewareChain := m.add websocketRequest

variable {σ : Type} (world : World Effect Effect.Answer σ)

def convertRequest (next : HandlerFunc σ) (r : Request) (s : σ) :
    Outcome HTTPRequest Effect Effect.Answer σ :=
  next ⟨r, false, 0, "", ""⟩ s

def revertRequest (next : Request → Code Request Effect Effect.Answer) : Middleware := fun r =>
  (next r.request).within HTTPRequest.request fun request => { r with request }

def register (m : MiddlewareChain) (final : HTTPRequest → HandlerBody) (r : Request) (s : σ) :
    Outcome HTTPRequest Effect Effect.Answer σ :=
  convertRequest (link world 0 m.middleware (finish world final)) r s

def registerSimple (m : MiddlewareChain) (final : Request → Code Request Effect Effect.Answer)
    (r : Request) (s : σ) : Outcome HTTPRequest Effect Effect.Answer σ :=
  convertRequest (link world 0 m.middleware (finish world (revertRequest final))) r s

end MiddlewareChain

end TSymbiote.Shared
