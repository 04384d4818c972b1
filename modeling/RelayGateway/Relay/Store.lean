import RelayGateway.Basic

namespace RelayGateway.Relay

inductive StoreError where
  | noSuchRelay (index count : Nat)
  deriving DecidableEq, Repr

def StoreError.message : StoreError → String
  | noSuchRelay index count => s!"relay index {index} out of range (count {count})"

def StoreError.notice : StoreError → Notice
  | noSuchRelay index _ => .error s!"Relays: index {index} out of range"

structure Store where
  states : List Bool
  deriving DecidableEq, Repr

namespace Store

def new (count : Nat) : Store := ⟨List.replicate count false⟩

def count (s : Store) : Nat := s.states.length

def isEmpty (s : Store) : Bool := s.count == 0

def get (s : Store) (index : Nat) : Except StoreError Bool :=
  match s.states[index]? with
  | some state => .ok state
  | none => .error (.noSuchRelay index s.count)

def set (s : Store) (index : Nat) (state : Bool) : Except StoreError Store :=
  if index < s.count then .ok ⟨s.states.set index state⟩
  else .error (.noSuchRelay index s.count)

-- Flip a relay; the answer holds its new state.
def toggle (s : Store) (index : Nat) : Except StoreError (Bool × Store) :=
  match s.states[index]? with
  | some state => .ok (!state, ⟨s.states.set index (!state)⟩)
  | none => .error (.noSuchRelay index s.count)

def fill (s : Store) (state : Bool) : Store := ⟨s.states.map fun _ => state⟩

theorem get_eq_ok_iff {s : Store} {index : Nat} {state : Bool} :
    s.get index = .ok state ↔ s.states[index]? = some state := by
  unfold get
  cases s.states[index]? <;> simp

end Store

end RelayGateway.Relay
