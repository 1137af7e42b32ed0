import TSymbiote.WebUI.CallHost

/-! # Requests over the tailnet

The WebUI sends a request for a host to the adapter in its host map. What stands
behind an adapter is a parameter. An answer may fail on the way, but one that
arrives is taken to arrive as a whole.
-/

namespace TSymbiote

open Shared WebUI

/-- What keeps a request from its handler: the connection, or a middleware. -/
inductive Obstacle where
  | connection (err : CallError)
  | denied (statusCode : Nat) (failure : statusCode ≠ 200)

/-- The WebUI's host map, and by adapter what is behind it. -/
structure Tailnet (D : Type) where
  client : Client
  obstacle : String → Option Obstacle
  daemon : String → D

namespace Tailnet

variable {B W D : Type} (net : Tailnet D)

/-- `wire` makes a body of what the handler wrote. -/
def send (wire : B → W) (answer : D → Reply B) (adapter : String) :
    Except CallError (Response W) :=
  match net.obstacle adapter with
  | some (.connection err) => .error err
  | some (.denied statusCode _) => .ok { statusCode, body := none }
  | none => arrive wire (answer (net.daemon adapter))

def ask (wire : B → W) (answer : D → Reply B) (host : String) : Except CallError (Option W) :=
  callHost net.client (net.send wire answer) host

/-- The host's adapter was reached, and wrote this. -/
def Answers (answer : D → Reply B) (host : String) (data : B) : Prop :=
  ∃ adapter, net.client.getAdapter host = some adapter ∧ adapter ≠ "" ∧
    net.obstacle adapter = none ∧ answer (net.daemon adapter) = Reply.write data

variable {net} in
theorem Answers.inj {answer : D → Reply B} {host : String} {data data' : B}
    (h : net.Answers answer host data) (h' : net.Answers answer host data') : data = data' := by
  obtain ⟨adapter, hget, _, _, hwrite⟩ := h
  obtain ⟨adapter', hget', _, _, hwrite'⟩ := h'
  rw [hget] at hget'
  cases hget'
  rw [hwrite] at hwrite'
  cases hwrite'
  rfl

end Tailnet

/-- A reply is written, or a failure. -/
def PlainReply {B : Type} (reply : Reply B) : Prop :=
  (∃ data, reply = Reply.write data) ∨ reply = none ∨
    ∃ statusCode, statusCode ≠ 200 ∧ reply = Reply.setStatusCode statusCode

/-- A call comes back with what the adapter wrote, or fails. -/
theorem ask_cases {B W D : Type} (net : Tailnet D) (wire : B → W) {answer : D → Reply B}
    (hplain : ∀ d, PlainReply (answer d)) (host : String) :
    (∃ data, net.Answers answer host data ∧ net.ask wire answer host = .ok (some (wire data))) ∨
      (∀ data, ¬ net.Answers answer host data) ∧ ∃ err, net.ask wire answer host = .error err := by
  unfold Tailnet.ask callHost
  cases hadapter : net.client.getAdapter host with
  | none =>
      refine .inr ⟨?_, _, rfl⟩
      rintro data ⟨adapter, hget, _⟩
      rw [hadapter] at hget
      cases hget
  | some adapter =>
      dsimp only
      have hsame : ∀ {data}, net.Answers answer host data → adapter ≠ "" ∧
          net.obstacle adapter = none ∧ answer (net.daemon adapter) = Reply.write data := by
        rintro data ⟨adapter', hget, hrest⟩
        rw [hadapter] at hget
        cases hget
        exact hrest
      by_cases hempty : adapter = ""
      · rw [if_pos hempty]
        exact .inr ⟨fun data hdata => (hsame hdata).1 hempty, _, rfl⟩
      · rw [if_neg hempty]
        unfold Tailnet.send
        cases hobstacle : net.obstacle adapter with
        | some obstacle =>
            have hnot : ∀ data, ¬ net.Answers answer host data := by
              intro data hdata
              rw [(hsame hdata).2.1] at hobstacle
              cases hobstacle
            cases obstacle with
            | connection err => exact .inr ⟨hnot, _, rfl⟩
            | denied statusCode failure => exact .inr ⟨hnot, _, callAdapter_status failure⟩
        | none =>
            rcases hplain (net.daemon adapter) with ⟨data, hwrite⟩ | hpanic | ⟨code, hcode, hset⟩
            · left
              refine ⟨data, ⟨adapter, hadapter, hempty, hobstacle, hwrite⟩, ?_⟩
              rw [hwrite]
              rfl
            · refine .inr ⟨fun data hdata => ?_, endOfBody, ?_⟩
              · have hwrite := (hsame hdata).2.2
                rw [hpanic] at hwrite
                cases hwrite
              · rw [hpanic]
                rfl
            · refine .inr ⟨fun data hdata => ?_, statusError code, ?_⟩
              · have hwrite := (hsame hdata).2.2
                rw [hset] at hwrite
                cases hwrite
              · rw [hset]
                exact callAdapter_status hcode

end TSymbiote
