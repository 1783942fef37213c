import Mathlib.Data.Finset.SDiff
import Mathlib.Data.Finset.Card
import Mathlib.Order.Bounds.Basic

/-!
# A pool of resources

What an allocator is for, before any bitmap: a finite set of resources,
of which the `live` ones are handed out and the others available. A
`Pool` cannot hold a live resource that is not one of its own. Handing
out takes an available resource and giving back returns a live one. A
pool serves its resources from the least on if it hands out the least
available one (`IsLeast p.available`).
-/

namespace FirstKernel

structure Pool {α : Type*} (stock : Finset α) where
  live : Finset α
  live_subset : live ⊆ stock

namespace Pool

variable {α : Type*} [DecidableEq α] {stock : Finset α}

def empty (stock : Finset α) : Pool stock := ⟨∅, Finset.empty_subset stock⟩

def available (p : Pool stock) : Finset α := stock \ p.live

def handOut (p : Pool stock) (a : α) (ha : a ∈ p.available) : Pool stock where
  live := insert a p.live
  live_subset := Finset.insert_subset (Finset.mem_sdiff.mp ha).1 p.live_subset

def giveBack (p : Pool stock) (a : α) : Pool stock where
  live := p.live.erase a
  live_subset := (Finset.erase_subset a p.live).trans p.live_subset

theorem mem_available {p : Pool stock} {a : α} :
    a ∈ p.available ↔ a ∈ stock ∧ a ∉ p.live := Finset.mem_sdiff

theorem mem_live_handOut {p : Pool stock} {a b : α} {ha : a ∈ p.available} :
    b ∈ (p.handOut a ha).live ↔ b = a ∨ b ∈ p.live := Finset.mem_insert

theorem mem_live_giveBack {p : Pool stock} {a b : α} :
    b ∈ (p.giveBack a).live ↔ b ≠ a ∧ b ∈ p.live := Finset.mem_erase

theorem available_eq_empty_iff {p : Pool stock} : p.available = ∅ ↔ p.live = stock := by
  rw [available, Finset.sdiff_eq_empty_iff_subset]
  exact ⟨fun h => p.live_subset.antisymm h, fun h => h.ge⟩

/-- Nothing is available just when as many are live as there are. -/
theorem available_eq_empty_iff_card {p : Pool stock} :
    p.available = ∅ ↔ p.live.card = stock.card := by
  rw [available_eq_empty_iff]
  exact ⟨congrArg Finset.card, fun h => Finset.eq_of_subset_of_card_le p.live_subset h.ge⟩

end Pool

end FirstKernel
