import LinkGate.Buffer.Memory
import Mathlib.Data.List.Basic

/-!
# Loads and stores

A store changes the bytes of its interval and no others, and a load sees every byte of its interval.
So a store inside an interval replaces that part of what is loaded from it.  `latest` is the byte
that a list of writes, the oldest first, has left at an address.
-/

set_option autoImplicit false

namespace LinkGate.Memory
variable (memory : Memory) (start : Nat)

theorem length_load (count : Nat) : (memory.load start count).length = count := by
  rw [load, List.length_map, List.length_range]

theorem load_getElem? {count offset : Nat} (inside : offset < count) :
    (memory.load start count)[offset]? = some (memory (start + offset)) := by
  rw [load, List.getElem?_map, List.getElem?_range inside, Option.map_some]

theorem store_inside (bytes : Bytes) {offset : Nat} (inside : offset < bytes.length) :
    memory.store start bytes (start + offset) = bytes[offset] := by
  rw [store, if_pos (Nat.le_add_right _ _), Nat.add_sub_cancel_left,
    List.getElem?_eq_getElem inside, Option.getD_some]

theorem store_outside (bytes : Bytes) {address : Nat}
    (outside : address < start ∨ start + bytes.length ≤ address) :
    memory.store start bytes address = memory address := by
  by_cases below : start ≤ address
  · have past : bytes.length ≤ address - start := by omega
    rw [store, if_pos below, List.getElem?_eq_none past, Option.getD_none]
  · rw [store, if_neg below]

theorem store_nil : memory.store start [] = memory := by
  funext address
  simp [store]

theorem store_append (front back : Bytes) :
    memory.store start (front ++ back) =
      (memory.store start front).store (start + front.length) back := by
  funext address
  by_cases below : address < start + front.length
  · rw [store_outside _ _ back (.inl below)]
    by_cases inside : start ≤ address
    · have within : address - start < front.length := Nat.sub_lt_left_of_lt_add inside below
      rw [store, store, if_pos inside, if_pos inside, List.getElem?_append_left within]
    · rw [store, store, if_neg inside, if_neg inside]
  · have beyond : start + front.length ≤ address := Nat.le_of_not_lt below
    have inside : start ≤ address := Nat.le_of_add_right_le beyond
    have past : front.length ≤ address - start := Nat.le_sub_of_add_le' beyond
    rw [store, store, if_pos inside, if_pos beyond, List.getElem?_append_right past,
      store_outside _ _ front (.inr beyond), Nat.sub_sub]

theorem load_store_inside (base : Nat) {count offset : Nat} (bytes : Bytes)
    (fits : offset + bytes.length ≤ count) :
    (memory.store (base + offset) bytes).load base count =
      (memory.load base count).take offset ++ bytes ++
        (memory.load base count).drop (offset + bytes.length) := by
  have lengths := memory.length_load base count
  apply List.ext_getElem?
  intro i
  by_cases inside : i < count
  · rw [load_getElem? _ _ inside]
    by_cases before : i < offset
    · rw [store_outside _ _ _ (Or.inl (by omega)), List.append_assoc,
        List.getElem?_append_left (by rw [List.length_take, lengths]; omega),
        List.getElem?_take_of_lt before, load_getElem? _ _ inside]
    · by_cases within : i < offset + bytes.length
      · have place : base + i = base + offset + (i - offset) := by omega
        have shorter : i - offset < bytes.length := by omega
        rw [place, store_inside _ _ _ shorter, List.append_assoc,
          List.getElem?_append_right (by rw [List.length_take, lengths]; omega),
          List.length_take, lengths, Nat.min_eq_left (by omega),
          List.getElem?_append_left shorter, List.getElem?_eq_getElem shorter]
      · rw [store_outside _ _ _ (Or.inr (by omega)), List.getElem?_append_right
          (by rw [List.length_append, List.length_take, lengths]; omega),
          List.length_append, List.length_take, lengths, Nat.min_eq_left (by omega),
          List.getElem?_drop, Nat.add_sub_cancel' (by omega), load_getElem? _ _ inside]
  · rw [List.getElem?_eq_none (by rw [length_load]; omega), List.getElem?_eq_none]
    rw [List.length_append, List.length_append, List.length_take, List.length_drop, lengths]
    omega

theorem take_drop_load {count offset : Nat} (base : Nat) {length : Nat}
    (fits : offset + length ≤ count) :
    ((memory.load base count).drop offset).take length = memory.load (base + offset) length := by
  apply List.ext_getElem?
  intro i
  by_cases inside : i < length
  · rw [List.getElem?_take_of_lt inside, List.getElem?_drop, load_getElem? _ _ (by omega),
      load_getElem? _ _ inside, Nat.add_assoc]
  · rw [List.getElem?_eq_none, List.getElem?_eq_none]
    · rw [length_load]
      omega
    · rw [List.length_take]
      omega

end LinkGate.Memory

namespace LinkGate

/-- Bytes that were stored at an address and the ones that follow. -/
structure Write where
  start : Nat
  bytes : Bytes
  deriving DecidableEq, Repr

def Write.byteAt? (write : Write) (address : Nat) : Option UInt8 :=
  if write.start ≤ address then write.bytes[address - write.start]? else none

/-- The byte most recently written to an address, or the one there from the start. -/
def latest (initial : Memory) (history : List Write) (address : Nat) : UInt8 :=
  (history.reverse.findSome? fun write => write.byteAt? address).getD (initial address)

theorem latest_append (initial : Memory) (past recent : List Write) (address : Nat) :
    latest initial (past ++ recent) address = latest (latest initial past) recent address := by
  rw [latest, List.reverse_append, List.findSome?_append, latest, latest]
  cases recent.reverse.findSome? fun write => write.byteAt? address with
  | none => rfl
  | some byte => rfl

theorem latest_singleton (memory : Memory) (start : Nat) (bytes : Bytes) :
    latest memory [⟨start, bytes⟩] = memory.store start bytes := by
  funext address
  rw [latest, List.reverse_singleton, List.findSome?_singleton, Write.byteAt?, Memory.store]
  split <;> rfl

end LinkGate
