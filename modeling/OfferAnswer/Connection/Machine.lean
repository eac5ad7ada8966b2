import OfferAnswer.Ident

/-!
# Connection state

One state for a whole connection, folded from the states of its ICE components and the DTLS
handshakes that were completed. The worst component decides: a failed one before all, then the
one that is furthest behind. A connection is complete when every component is and every endpoint
has its handshake.

An event of an earlier generation is stale and changes nothing. Closing is final. A change is
announced once, when it happens.
-/

namespace OfferAnswer

/-- The state of a connection. -/
inductive ConnectionState where
  /-- Nothing has started. -/
  | new
  /-- Some component is checking pairs. -/
  | checking
  /-- Every component has a working pair. -/
  | connected
  /-- Every component is done, and so is DTLS. -/
  | completed
  /-- Some component failed. -/
  | failed
  /-- Some component lost its connection. -/
  | disconnected
  /-- Torn down for good. -/
  | closed
deriving DecidableEq, Repr

namespace ConnectionState

/-- Whether media can flow. -/
def isConnected : ConnectionState → Bool
  | connected | completed => true
  | _ => false

def name : ConnectionState → String
  | new => "New"
  | checking => "Checking"
  | connected => "Connected"
  | completed => "Completed"
  | failed => "Failed"
  | disconnected => "Disconnected"
  | closed => "Closed"

end ConnectionState

/-- The state of an ICE component. -/
inductive IceState where
  /-- Gathering. -/
  | new
  /-- Checking pairs. -/
  | checking
  /-- A pair works. -/
  | connected
  /-- Done checking. -/
  | completed
  /-- No pair works. -/
  | failed
  /-- The connection was lost. -/
  | disconnected
deriving DecidableEq, Repr

namespace IceState

/-- How far along a state is. Failure is apart, below all others. -/
def rank : IceState → Nat
  | failed => 0
  | new => 1
  | checking => 2
  | disconnected => 3
  | connected => 4
  | completed => 5

def ofName? (s : String) : Option IceState :=
  if s = "new" then some new
  else if s = "checking" then some checking
  else if s = "connected" then some connected
  else if s = "completed" then some completed
  else if s = "failed" then some failed
  else if s = "disconnected" then some disconnected
  else none

end IceState

/-- An ICE component of an endpoint. -/
inductive IceComponent where
  /-- Component 1. -/
  | rtp
  /-- Component 2, there only when RTCP has its own port. -/
  | rtcp
deriving DecidableEq, Repr

namespace IceComponent

/-- The components of an endpoint. -/
def ofMux (mux : Bool) : List IceComponent := if mux then [rtp] else [rtp, rtcp]

def ofName? (s : String) : Option IceComponent :=
  if s = "rtp" then some rtp else if s = "rtcp" then some rtcp else none

end IceComponent

/-- A component that is followed. -/
structure TrackedComponent where
  /-- The endpoint it belongs to. -/
  endpoint : EndpointId
  /-- Which of its components. -/
  component : IceComponent
  /-- The state last reported. -/
  state : IceState
deriving DecidableEq, Repr

/-- The fold of component states and handshakes into one state. -/
structure ConnectionMachine where
  /-- The state last announced. -/
  state : ConnectionState := .new
  /-- The components followed. -/
  components : List TrackedComponent := []
  /-- The endpoints whose handshake completed. -/
  secured : List EndpointId := []
  /-- The number of ICE restarts. It has no bound here; a counter of 64 bits is the same up to
  `2 ^ 64 - 1` of them. -/
  generation : Nat := 0
  /-- The states announced so far, in order. -/
  announced : List ConnectionState := []
deriving DecidableEq, Repr

namespace ConnectionMachine

/-! ## The fold -/

/-- The state that is furthest behind. -/
def worst (first : IceState) (rest : List IceState) : IceState :=
  rest.foldl (fun w s ↦ if s.rank < w.rank then s else w) first

/-- The state that components and handshakes make. -/
def aggregate (m : ConnectionMachine) : ConnectionState :=
  match m.components.map (·.state) with
  | [] => .new
  | s :: ss =>
    match worst s ss with
    | .failed => .failed
    | .new => .new
    | .checking => .checking
    | .disconnected => .disconnected
    | .connected => .connected
    | .completed =>
      if m.components.all fun c ↦ m.secured.contains c.endpoint then .completed else .connected

/-- Moves to a state, and announces it if it is another. -/
def moveTo (m : ConnectionMachine) (s : ConnectionState) : ConnectionMachine :=
  if m.state = s then m else { m with state := s, announced := m.announced ++ [s] }

/-- Moves to the state that components and handshakes make. -/
def evaluate (m : ConnectionMachine) : ConnectionMachine :=
  if m.state = .closed then m else m.moveTo m.aggregate

/-! ## Endpoints -/

/-- Whether a component is followed. -/
def tracks (m : ConnectionMachine) (e : EndpointId) (c : IceComponent) : Bool :=
  m.components.any fun t ↦ t.endpoint == e && t.component == c

/-- Whether an endpoint is followed. -/
def hasEndpoint (m : ConnectionMachine) (e : EndpointId) : Bool :=
  m.components.any (·.endpoint == e)

/-- Follows a component from now on, unless it is followed. -/
def track (m : ConnectionMachine) (e : EndpointId) (c : IceComponent) : ConnectionMachine :=
  if m.tracks e c then m else { m with components := m.components ++ [⟨e, c, .new⟩] }

/-- Follows components of an endpoint from now on. -/
def addEndpoint (m : ConnectionMachine) (e : EndpointId) (cs : List IceComponent) :
    ConnectionMachine :=
  if m.state = .closed then m else (cs.foldl (fun m c ↦ m.track e c) m).evaluate

/-- Follows an endpoint no longer. -/
def removeEndpoint (m : ConnectionMachine) (e : EndpointId) : ConnectionMachine :=
  evaluate { m with
    components := m.components.filter (·.endpoint != e)
    secured := m.secured.filter (· != e) }

/-! ## Events -/

/-- Whether an event of a generation counts. -/
def accepts (m : ConnectionMachine) (generation : Nat) : Bool :=
  m.state ≠ .closed && generation == m.generation

/-- A component changed its state. Says whether the event counted. -/
def handleIce (m : ConnectionMachine) (e : EndpointId) (c : IceComponent) (s : IceState)
    (generation : Nat) : Bool × ConnectionMachine :=
  if m.accepts generation && m.tracks e c then
    (true, evaluate { m with
      components := m.components.map fun (t : TrackedComponent) ↦
        if t.endpoint = e ∧ t.component = c then { t with state := s } else t })
  else (false, m)

/-- The handshake of an endpoint completed. Says whether the event counted. -/
def handleDtls (m : ConnectionMachine) (e : EndpointId) (generation : Nat) :
    Bool × ConnectionMachine :=
  if m.accepts generation && m.hasEndpoint e then
    (true, evaluate { m with
      secured := if m.secured.contains e then m.secured else m.secured ++ [e] })
  else (false, m)

/-- Starts a new generation, in which every component checks again. Handshakes stay. -/
def restart (m : ConnectionMachine) : ConnectionMachine :=
  if m.state = .closed then m
  else evaluate { m with
    generation := m.generation + 1
    components := m.components.map fun (t : TrackedComponent) ↦ { t with state := .checking } }

/-- Closes for good. -/
def close (m : ConnectionMachine) : ConnectionMachine :=
  moveTo { m with components := [], secured := [] } .closed

end ConnectionMachine

end OfferAnswer
