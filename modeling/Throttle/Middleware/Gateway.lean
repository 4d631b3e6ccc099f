import Throttle.Middleware.Layer

/-!
A family of services over one limiter, some rules and one inner service, with the responses of
their calls.

Services are numbered in the order in which they were made. A clone has the layers of the service it
was made from, and a service layered anew has those of the first one. Responses are numbered in the
order of the calls; a dropped one keeps its number and answers nothing any more.
-/

namespace Throttle.Middleware

structure Gateway where
  shared : Shared
  layers : List Layer
  services : List (List Layer)
  responses : List (Option Response)
  readiness : Poll

/-- What happens to the services of a gateway. -/
inductive Command where
  | call (service : Nat) (request : Request) (outcome : Poll)
  | send (service : Nat) (request : Request) (outcome : Poll)
  | poll (id : Nat)
  | resolve (id : Nat) (outcome : Poll)
  | drop (id : Nat)
  | setReady (outcome : Poll)
  | ready (service : Nat)
  | clone (service : Nat)
  | relayer
  | sweep
  deriving DecidableEq, Repr

inductive Answer where
  | number (n : Nat)
  | result (p : Poll)
  | readiness (p : Poll)
  | success (b : Bool)
  | nothing
  deriving DecidableEq, Repr

namespace Gateway

/-- One service, ready, with no call made. -/
def ofRules (limiter : Limiter) (rules : Nat → Rule Key) (layers : List Layer) : Gateway :=
  ⟨⟨limiter, rules, 0, 0⟩, layers, [layers], [], .ok ""⟩

/-- One service over one rule. -/
def create (limiter : Limiter) (rule : Rule Key) (layers : List Layer) : Gateway :=
  ofRules limiter (fun _ => rule) layers

def stack (g : Gateway) (service : Nat) : List Layer := g.services[service]?.getD g.layers

def response? (g : Gateway) (id : Nat) : Option Response := (g.responses[id]?).join

def setResponse (g : Gateway) (id : Nat) (r : Option Response) : Gateway :=
  { g with responses := g.responses.set id r }

def setLimiter (g : Gateway) (limiter : Limiter) : Gateway :=
  { g with shared := { g.shared with limiter } }

def addService (g : Gateway) (layers : List Layer) : Gateway × Answer :=
  ({ g with services := g.services ++ [layers] }, .number g.services.length)

/-- One step at the given clock reading. -/
def step (g : Gateway) (clock : Nat) : Command → Gateway × Answer
  | .call service request outcome =>
      let (response, shared) := g.shared.call clock request outcome (g.stack service)
      ({ g with shared, responses := g.responses ++ [some response] }, .number g.responses.length)
  | .send service request outcome =>
      let (response, shared) := g.shared.call clock request outcome (g.stack service)
      let (result, response, limiter) := response.poll shared.limiter
      ({ g with shared := { shared with limiter := response.drop limiter } }, .result result)
  | .poll id =>
      match g.response? id with
      | none => (g, .nothing)
      | some response =>
          let (result, response, limiter) := response.poll g.shared.limiter
          ((g.setLimiter limiter).setResponse id (some response), .result result)
  | .resolve id outcome =>
      match g.response? id with
      | none => (g, .success false)
      | some response => (g.setResponse id (some (response.resolve outcome)), .success true)
  | .drop id =>
      match g.response? id with
      | none => (g, .success false)
      | some response =>
          ((g.setLimiter (response.drop g.shared.limiter)).setResponse id none, .success true)
  | .setReady outcome => ({ g with readiness := outcome }, .nothing)
  | .ready _ => (g, .readiness g.readiness)
  | .clone service => g.addService (g.stack service)
  | .relayer => g.addService g.layers
  | .sweep =>
      ({ g with shared := { g.shared with rules := fun i => (g.shared.rules i).sweep clock } },
        .nothing)

/-- The answers to commands, each given with the clock reading at which it arrives. -/
def run (g : Gateway) : List (Nat × Command) → Gateway × List Answer
  | [] => (g, [])
  | (clock, command) :: rest =>
      let (g, answer) := g.step clock command
      let (g, answers) := g.run rest
      (g, answer :: answers)

end Gateway

end Throttle.Middleware
