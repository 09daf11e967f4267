import GraphDissect.Library.ProbeTable

/-!
# The function-coverage map

`func_coverage_t` is a shared mapping with a block flag, a hash table of call
edges and a hash table of functions.  The instrumented target writes it
(`libhfuzz/instrument.c`), MFuzz reads it (`fcov.cpp`).  Both tables are probe
tables with the same hash and the same probe limit; a zero key marks an empty
slot.
-/

namespace GraphDissect.Fcov

open Library

def hashProbeMax : Nat := 64

def fcovEdgeTabSize : Nat := 2 ^ 20

def fcovEdgeTabMask : UInt64 := 0xfffff

def fcovFuncTabSize : Nat := 2 ^ 16

def fcovFuncTabMask : UInt64 := 0xffff

def fcovHash64 (x : UInt64) : UInt64 :=
  let x := x ^^^ (x >>> 33)
  let x := x * 0xff51afd7ed558ccd
  let x := x ^^^ (x >>> 33)
  let x := x * 0xc4ceb9fe1a85ec53
  x ^^^ (x >>> 33)

/-- `edge_hits`, keyed by packed call edges. -/
def edgeLayout : ProbeLayout UInt64 where
  empty := 0
  home key := (fcovHash64 key &&& fcovEdgeTabMask).toNat
  size := fcovEdgeTabSize
  limit := hashProbeMax
  limit_pos := by decide

/-- `func_hits`, keyed by the low half of function addresses. -/
def funcLayout : ProbeLayout UInt32 where
  empty := 0
  home key := (fcovHash64 key.toUInt64 &&& fcovFuncTabMask).toNat
  size := fcovFuncTabSize
  limit := hashProbeMax
  limit_pos := by decide

/-- `func_coverage_t`; the totals `edge_count` and `func_count` are the totals
of the two tables. -/
structure FuncCoverage where
  blockWrites : Bool
  edgeHits : ProbeTable UInt64
  funcHits : ProbeTable UInt32

/-- The map as `fcov_initBitmap` leaves it. -/
def FuncCoverage.zeroed : FuncCoverage := ⟨false, edgeLayout.zeroed, funcLayout.zeroed⟩

/-- Pack two addresses into an edge key, the low 32 bits of each. -/
def fcovMakeEdgeKey (src dst : UInt64) : UInt64 :=
  (src.toUInt32.toUInt64 <<< 32) ||| dst.toUInt32.toUInt64

def calleeKey (edgeKey : UInt64) : UInt32 := edgeKey.toUInt32

def callerKey (edgeKey : UInt64) : UInt32 := (edgeKey >>> 32).toUInt32

theorem toNat_makeEdgeKey (src dst : UInt64) :
    (fcovMakeEdgeKey src dst).toNat = src.toUInt32.toNat * 2 ^ 32 + dst.toUInt32.toNat := by
  have high := src.toUInt32.toNat_lt
  have low := dst.toUInt32.toNat_lt
  have shifted : (src.toUInt32.toUInt64 <<< 32).toNat = src.toUInt32.toNat <<< 32 := by
    rw [UInt64.toNat_shiftLeft, UInt32.toNat_toUInt64, Nat.shiftLeft_eq, Nat.shiftLeft_eq]
    apply Nat.mod_eq_of_lt
    change _ * 2 ^ 32 < _
    omega
  rw [fcovMakeEdgeKey, UInt64.toNat_or, shifted, UInt32.toNat_toUInt64,
    ← Nat.shiftLeft_add_eq_or_of_lt low, Nat.shiftLeft_eq]

@[simp]
theorem calleeKey_makeEdgeKey (src dst : UInt64) :
    calleeKey (fcovMakeEdgeKey src dst) = dst.toUInt32 := by
  have low := dst.toUInt32.toNat_lt
  apply UInt32.toNat_inj.mp
  rw [calleeKey, UInt64.toNat_toUInt32, toNat_makeEdgeKey]
  omega

@[simp]
theorem callerKey_makeEdgeKey (src dst : UInt64) :
    callerKey (fcovMakeEdgeKey src dst) = src.toUInt32 := by
  have high := src.toUInt32.toNat_lt
  have low := dst.toUInt32.toNat_lt
  apply UInt32.toNat_inj.mp
  rw [callerKey, UInt64.toNat_toUInt32, UInt64.toNat_shiftRight, toNat_makeEdgeKey]
  change (_ >>> 32) % _ = _
  rw [Nat.shiftRight_eq_div_pow]
  omega

/-- The entry address of the function containing `pc`, as `dladdr` reports it;
`pc` itself when it reports none. -/
def pcToFuncEntry (dladdr : UInt64 → Option UInt64) (pc : UInt64) : UInt64 :=
  match dladdr pc with
  | some dliSaddr => if dliSaddr ≠ 0 then dliSaddr else pc
  | none => pc

/-- Insert or increment an edge key; a record whose probed slots are all taken
by other keys is dropped. -/
def fcovRecordEdge (fcov : FuncCoverage) (edgeKey : UInt64) : FuncCoverage :=
  if fcov.blockWrites ∨ edgeKey = 0 then fcov
  else match edgeLayout.record fcov.edgeHits edgeKey with
    | some edgeHits => { fcov with edgeHits }
    | none => fcov

/-- Insert or increment a function, keyed by the low half of its address. -/
def fcovRecordFunc (fcov : FuncCoverage) (faddr : UInt64) : FuncCoverage :=
  if fcov.blockWrites then fcov
  else if faddr.toUInt32 = 0 then fcov
  else match funcLayout.record fcov.funcHits faddr.toUInt32 with
    | some funcHits => { fcov with funcHits }
    | none => fcov

def fcovRecord (dladdr : UInt64 → Option UInt64) (fcov : FuncCoverage)
    (caller callee : UInt64) : FuncCoverage :=
  if fcov.blockWrites ∨ callee = 0 then fcov
  else
    let edgeKey := fcovMakeEdgeKey (pcToFuncEntry dladdr caller) callee
    fcovRecordFunc (fcovRecordEdge fcov edgeKey) callee

def fcovIsEdgeVisited (fcov : FuncCoverage) (edgeKey : UInt64) : UInt32 :=
  edgeLayout.lookup fcov.edgeHits edgeKey

def fcovIsNodeVisited (fcov : FuncCoverage) (nodeKey : UInt32) : UInt32 :=
  funcLayout.lookup fcov.funcHits nodeKey

end GraphDissect.Fcov
