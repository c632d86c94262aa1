import Braidpool.Protocol.Message
import Mathlib.Data.Finmap

/-! The table of connections. -/
namespace Braidpool.Connection
open Braidpool.Protocol

structure Metadata where
  createdAt : SystemTime
  deriving DecidableEq

abbrev Map (SocketAddr : Type) := Finmap fun _ : SocketAddr => Metadata

/-- A peer's address is mapped to metadata about the connection. The lock around
the map makes each function below one step. -/
structure ConnectionManager (SocketAddr : Type) where
  capacity : Nat
  sharedState : Map SocketAddr

namespace ConnectionManager
variable {SocketAddr : Type}

def new (capacity : Nat) : ConnectionManager SocketAddr := ⟨capacity, ∅⟩

/-- The addresses in the table. -/
def addresses (m : ConnectionManager SocketAddr) : Finset SocketAddr := m.sharedState.keys

def numConnections (m : ConnectionManager SocketAddr) : Nat := m.addresses.card

variable [DecidableEq SocketAddr]

def insert (m : ConnectionManager SocketAddr) (addr : SocketAddr) (s : Metadata) :
    Except String (Option Metadata × ConnectionManager SocketAddr) :=
  if m.capacity ≤ m.sharedState.keys.card then .error "Connection limit reached"
  else .ok (m.sharedState.lookup addr, { m with sharedState := m.sharedState.insert addr s })

def remove (m : ConnectionManager SocketAddr) (addr : SocketAddr) :
    Option Metadata × ConnectionManager SocketAddr :=
  (m.sharedState.lookup addr, { m with sharedState := m.sharedState.erase addr })

def get (m : ConnectionManager SocketAddr) (addr : SocketAddr) : Option Metadata :=
  m.sharedState.lookup addr

theorem get_eq_none {m : ConnectionManager SocketAddr} {addr : SocketAddr} :
    m.get addr = none ↔ addr ∉ m.addresses := by
  rw [get, Finmap.lookup_eq_none, addresses, Finmap.mem_keys]

theorem insert_ok {m m' : ConnectionManager SocketAddr} {addr : SocketAddr} {s : Metadata}
    {old : Option Metadata} (h : m.insert addr s = .ok (old, m')) :
    m.numConnections < m.capacity ∧ m'.capacity = m.capacity ∧
      m'.addresses = Insert.insert addr m.addresses := by
  unfold insert at h
  split at h
  · cases h
  · rename_i hroom
    obtain ⟨-, rfl⟩ := Prod.mk.inj (Except.ok.inj h)
    refine ⟨Nat.lt_of_not_le hroom, rfl, ?_⟩
    ext k
    simp only [addresses, Finmap.mem_keys, Finmap.mem_insert, Finset.mem_insert]

theorem insert_error {m : ConnectionManager SocketAddr} {addr : SocketAddr} {s : Metadata} {e : String}
    (h : m.insert addr s = .error e) : m.capacity ≤ m.numConnections ∧ e = "Connection limit reached" := by
  unfold insert at h
  split at h
  · rename_i hfull
    exact ⟨hfull, (Except.error.inj h).symm⟩
  · cases h

@[simp] theorem addresses_remove (m : ConnectionManager SocketAddr) (addr : SocketAddr) :
    (m.remove addr).2.addresses = m.addresses.erase addr := Finmap.keys_erase _ _

end ConnectionManager

end Braidpool.Connection
