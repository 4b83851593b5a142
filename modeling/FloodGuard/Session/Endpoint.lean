import FloodGuard.Label

/-!
The remote end of a session, packed into one word: the address in the upper half, then the remote
port, then the local port. Unpacking gives back what was packed.
-/
namespace FloodGuard

structure Endpoint where
  remote : BitVec 32
  remotePort : UInt16
  localPort : UInt16
deriving DecidableEq, Repr

namespace Endpoint

def pack (e : Endpoint) : UInt64 :=
  ⟨e.remote ++ (e.remotePort.toBitVec ++ e.localPort.toBitVec)⟩

def unpack (word : UInt64) : Endpoint where
  remote := word.toBitVec.extractLsb' 32 32
  remotePort := ⟨word.toBitVec.extractLsb' 16 16⟩
  localPort := ⟨word.toBitVec.extractLsb' 0 16⟩

theorem unpack_pack (e : Endpoint) : unpack e.pack = e := by
  obtain ⟨remote, ⟨remotePort⟩, ⟨localPort⟩⟩ := e
  simp only [unpack, pack, mk.injEq, UInt16.ofBitVec.injEq]
  refine ⟨?_, ?_, ?_⟩ <;>
    · apply BitVec.eq_of_getLsbD_eq
      intro i hi
      simp only [BitVec.getLsbD_extractLsb', BitVec.getLsbD_append, hi, decide_true, Bool.true_and]
      grind

theorem pack_unpack (word : UInt64) : (unpack word).pack = word := by
  obtain ⟨word⟩ := word
  simp only [unpack, pack, UInt64.ofBitVec.injEq]
  apply BitVec.eq_of_getLsbD_eq
  intro i hi
  simp only [BitVec.getLsbD_extractLsb', BitVec.getLsbD_append]
  grind

theorem pack_inj {e f : Endpoint} : e.pack = f.pack ↔ e = f := by
  constructor
  · intro h
    rw [← unpack_pack e, h, unpack_pack]
  · exact congrArg pack

end Endpoint

end FloodGuard
