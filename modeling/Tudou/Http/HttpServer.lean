import Tudou.Foundation.Run
import Tudou.Tcp.Buffer
import Tudou.Tcp.ConnectionTable

/-!
# `HttpServer`: one state per connection

Model of the connection table of `src/tudou/http/HttpServer.cpp`.  What the parser, TLS and the
replies make of a `ConnectionState` is a parameter (`HttpProtocol`).

* `onMessage` — looks the state up and never creates one; the `shared_ptr` it holds stays valid when a
  reply closes the connection, whose entry is then gone.
* `follows_onMessage` — **no delivery leaves an entry behind**, whatever the replies do.
-/

namespace Tudou

open Transition

/-- What `HttpServer` does with the state of a connection. -/
structure HttpProtocol (σ : Type*) where
  /-- `create_connection_state`. -/
  fresh : σ
  /-- The state after received data were decrypted, parsed and replied to. -/
  process : σ → Bytes → σ

structure HttpServer (σ : Type*) where
  connectionStates : ConnectionTable σ

inductive HttpServerLabel where
  | lifecycle (l : Lifecycle)
  /-- `closes`: a reply to this delivery closes the connection. -/
  | message (a : Nat) (data : Bytes) (closes : Bool)
  deriving DecidableEq, Repr

namespace HttpServer

variable {σ : Type*} (http : HttpProtocol σ)

def create : HttpServer σ := ⟨.create⟩

def onMessage (a : Nat) (data : Bytes) (closes : Bool) (s : HttpServer σ) : HttpServer σ :=
  if data = [] then s
  else
    match s.connectionStates.entries a with
    | none => s
    | some state =>
      let t := s.connectionStates.store a (http.process state data)
      ⟨if closes then t.close a else t⟩

def step (s : HttpServer σ) : HttpServerLabel → Option (HttpServer σ)
  | .lifecycle l => (s.connectionStates.lifecycle (some http.fresh) l).map HttpServer.mk
  | .message a data closes =>
    if s.connectionStates.running ∧ s.connectionStates.status a ≠ .free then
      some (s.onMessage http a data closes)
    else none

def system : System (HttpServer σ) HttpServerLabel := ⟨create, step http⟩

theorem follows_onMessage {s : HttpServer σ} (h : s.connectionStates.Follows) (a : Nat) (data : Bytes)
    (closes : Bool) : (s.onMessage http a data closes).connectionStates.Follows := by
  unfold onMessage
  by_cases hdata : data = []
  · rw [if_pos hdata]
    exact h
  · rw [if_neg hdata]
    split
    · exact h
    · rename_i state hstate
      have hstore := h.store (h.openOnly hstate) (http.process state data)
      cases closes with
      | false => exact hstore
      | true => exact hstore.close a

end HttpServer

end Tudou
