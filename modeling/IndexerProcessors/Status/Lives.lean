import IndexerProcessors.Lib.Resume
import IndexerProcessors.Protos
import IndexerProcessors.Status.Saver

/-!
# Lives of a Postgres processor

A regular processor starts at its row of `processor_status`, and at the configured
version before there is one. It starts *at* the version it saved, not at the one after:
the last transaction of a batch is stored again. `defaultCheckpoints` is that in the
form `Lib.Resume` needs, with `get_starting_version` as the start and
`save_processor_status` as the save.
-/

namespace IndexerProcessors.Status

open IndexerProcessors.Lib

/-- A transaction of the stream, as far as checkpoints know it. -/
class Streamed (τ : Type) where
  version : τ → UInt64
  timestamp : τ → Option Timestamp

instance : Streamed Protos.Transaction := ⟨Protos.Transaction.version, Protos.Transaction.timestamp⟩

/-- The version as the tables store it. -/
abbrev Streamed.txnVersion {τ : Type} [Streamed τ] (txn : τ) : Int64 :=
  (Streamed.version txn).toInt64

/-- What the processors are fed: versions rise, and fit the columns. -/
structure Ledger (τ : Type) [Streamed τ] where
  txns : List τ
  in_order : txns.Pairwise fun a b => Streamed.version a < Streamed.version b
  fits : ∀ txn ∈ txns, (Streamed.version txn).toNat < 2 ^ 63

namespace Ledger

variable {τ : Type} [Streamed τ]

theorem pairwise_toNat (ledger : Ledger τ) : ledger.txns.Pairwise fun a b =>
    (Streamed.version a).toNat < (Streamed.version b).toNat :=
  ledger.in_order.imp UInt64.lt_iff_toNat_lt.mp

/-- The order of the stored versions is that of the stream. -/
theorem inOrder (ledger : Ledger τ) :
    ledger.txns.Pairwise fun a b => Streamed.txnVersion a < Streamed.txnVersion b := by
  refine List.Pairwise.imp_of_mem (fun {a b} ha hb hlt => ?_) ledger.in_order
  refine lt_of_not_ge fun hge => absurd hlt (not_lt.mpr ?_)
  exact UInt64.le_iff_toNat_le.mpr
    ((toInt64_le_toInt64_iff (ledger.fits b hb) (ledger.fits a ha)).mp hge)

/-- A version belongs to one transaction. -/
theorem eq_of_version (ledger : Ledger τ) {txn txn' : τ} (htxn : txn ∈ ledger.txns)
    (htxn' : txn' ∈ ledger.txns) (h : Streamed.txnVersion txn = Streamed.txnVersion txn') :
    txn = txn' :=
  eq_of_time_eq ledger.inOrder htxn htxn' h

/-- Rows under a version and a position: a key belongs to one row. -/
theorem eq_of_position (ledger : Ledger τ) {ι ρ : Type} {items : τ → List ι}
    {row : τ → ι × ℕ → Option ρ} {pk : ρ → Int64 × Int64}
    (hpk : ∀ txn item r, row txn item = some r →
      pk r = (Streamed.txnVersion txn, Int64.ofNat item.2))
    (hlength : ∀ txn ∈ ledger.txns, (items txn).length ≤ 2 ^ 63) :
    ∀ r ∈ ledger.txns.flatMap fun txn => (items txn).zipIdx.filterMap (row txn),
      ∀ r' ∈ ledger.txns.flatMap fun txn => (items txn).zipIdx.filterMap (row txn),
        pk r = pk r' → r = r' := by
  intro r hr r' hr' hkey
  obtain ⟨txn, htxn, hr⟩ := List.mem_flatMap.mp hr
  obtain ⟨txn', htxn', hr'⟩ := List.mem_flatMap.mp hr'
  obtain ⟨⟨item, i⟩, hitem, hrow⟩ := List.mem_filterMap.mp hr
  obtain ⟨⟨item', i'⟩, hitem', hrow'⟩ := List.mem_filterMap.mp hr'
  rw [hpk _ _ _ hrow, hpk _ _ _ hrow'] at hkey
  obtain ⟨hversion, hindex⟩ := Prod.mk.inj hkey
  obtain rfl := ledger.eq_of_version htxn htxn' hversion
  have hlt := (List.mem_zipIdx hitem).2.1
  have hlt' := (List.mem_zipIdx hitem').2.1
  have hbound := hlength txn htxn
  obtain rfl : i = i' := ofNat_int64_injOn (by omega) (by omega) hindex
  have hget := List.mem_zipIdx_iff_getElem?.mp hitem
  have hget' := List.mem_zipIdx_iff_getElem?.mp hitem'
  obtain rfl : item = item' := Option.some.inj (hget.symm.trans hget')
  exact Option.some.inj (hrow.symm.trans hrow')

end Ledger

section Default

variable {τ : Type} [Streamed τ]

/-- What is saved of the last transaction of a batch. -/
def batchEnd (last : τ) : BatchEnd := ⟨Streamed.version last, Streamed.timestamp last⟩

variable (sdk : Sdk) (processorName : String) (config : BootStrapConfig)

/-- `get_starting_version` of a regular processor. -/
def startOf (db : StatusDb) : ℕ :=
  ((getStartingVersion processorName (.default config) db).1.getD config.initialStartingVersion).toNat

variable {sdk processorName config}

theorem startOf_none {db : StatusDb} (h : db.processorStatus.lookup processorName = none) :
    startOf processorName config db = config.initialStartingVersion.toNat := by
  simp [startOf, getStartingVersion, h]

theorem startOf_some {db : StatusDb} {row : ProcessorStatus}
    (h : db.processorStatus.lookup processorName = some row) :
    startOf processorName config db =
      max row.lastSuccessVersion.toUInt64.toNat config.initialStartingVersion.toNat := by
  simp only [startOf, getStartingVersion, h, Option.getD_some]
  rcases le_total row.lastSuccessVersion.toUInt64 config.initialStartingVersion with hle | hle
  · rw [max_eq_right hle, max_eq_right (UInt64.le_iff_toNat_le.mp hle)]
  · rw [max_eq_left hle, max_eq_left (UInt64.le_iff_toNat_le.mp hle)]

theorem initial_le_startOf (db : StatusDb) :
    config.initialStartingVersion.toNat ≤ startOf processorName config db := by
  cases h : db.processorStatus.lookup processorName with
  | none => exact (startOf_none h).ge
  | some row => exact (startOf_some h).ge.trans' (le_max_right _ _)

/-- The row that a checkpoint stores, unless it keeps a later one. -/
def savedRow (sdk : Sdk) (last : τ) : ProcessorStatus where
  lastSuccessVersion := Streamed.txnVersion last
  lastTransactionTimestamp := (Streamed.timestamp last).map fun t =>
    sdk.parseTimestamp t (Streamed.txnVersion last)

theorem lookup_save (last : τ) (db : StatusDb) :
    (saveProcessorStatus sdk processorName (.default config)
        (batchEnd last) db).processorStatus.lookup processorName =
      some (Table.merged (forwardOnly (·.lastSuccessVersion))
        (db.processorStatus.lookup processorName) (savedRow sdk last)) :=
  Table.lookup_upsert_self ..

/-- A saved version is where the next life starts, or where it would have started is. -/
theorem startOf_save_le (last : τ) (db : StatusDb) :
    startOf processorName config
        (saveProcessorStatus sdk processorName (.default config) (batchEnd last) db) ≤
      max (startOf processorName config db) ((Streamed.version last).toNat + 1) := by
  have hinitial : config.initialStartingVersion.toNat ≤ startOf processorName config db :=
    initial_le_startOf db
  rw [startOf_some (lookup_save last db)]
  refine max_le ?_ (le_max_of_le_left hinitial)
  cases hold : db.processorStatus.lookup processorName with
  | none => exact le_max_of_le_right (Nat.le_succ _)
  | some old =>
    rw [startOf_some hold]
    simp only [Table.merged, forwardOnly]
    split
    · exact le_max_of_le_right (Nat.le_succ _)
    · exact le_max_of_le_left (le_max_left _ _)

end Default

/-- The checkpoints of a regular processor. -/
def defaultCheckpoints {τ : Type} [Streamed τ] (sdk : Sdk) (processorName : String)
    (config : BootStrapConfig) : Checkpoints StatusDb τ where
  version txn := (Streamed.version txn).toNat
  fresh := StatusDb.empty
  start := startOf processorName config
  save last db := saveProcessorStatus sdk processorName (.default config) (batchEnd last) db
  start_save_le := startOf_save_le
  fresh_le_start db := (startOf_none (by simp [StatusDb.empty])).trans_le (initial_le_startOf db)

/-- What a regular processor has passed: everything from the configured version on. -/
theorem span_defaultCheckpoints {τ : Type} [Streamed τ] {sdk : Sdk} {processorName : String}
    {boot : BootStrapConfig} {ω : Type} {writes : List τ → Option (List ω)} (ledger : Ledger τ)
    (next : ℕ) :
    Processor.span ⟨defaultCheckpoints sdk processorName boot, writes⟩ ledger.txns next =
      ledger.txns.filter fun txn =>
        boot.initialStartingVersion.toNat ≤ (Streamed.version txn).toNat ∧
          (Streamed.version txn).toNat < next := by
  have hfirst : startOf processorName boot StatusDb.empty = boot.initialStartingVersion.toNat :=
    startOf_none (by simp [StatusDb.empty])
  rw [← hfirst]
  rfl

/-- Of a transaction that a processor has passed, a table with the version in its key has
exactly the rows. -/
theorem lookup_iff_of_passed {τ ω κ ρ : Type} [Streamed τ] [DecidableEq κ] {sdk : Sdk}
    {processorName : String} {boot : BootStrapConfig} {writes : List τ → Option (List ω)}
    {ledger : Ledger τ}
    {lives : Processor.Lives ⟨defaultCheckpoints sdk processorName boot, writes⟩ ledger.txns}
    {row : ω → Option (κ × Write ρ)} {rowsOf : τ → List ρ} {pk : ρ → κ} {query : ρ → ρ → ρ}
    (hrows : Processor.KeyedRows ⟨defaultCheckpoints sdk processorName boot, writes⟩ ledger.txns row
      rowsOf pk query)
    {v : κ → Int64} (hv : ∀ t, ∀ r ∈ rowsOf t, v (pk r) = Streamed.txnVersion t) {txn : τ}
    (htxn : txn ∈ lives.passed) {k : κ} (hk : v k = Streamed.txnVersion txn) {r : ρ} :
    ((∅ : Table κ ρ).writeAll (lives.state.log.filterMap row)).lookup k = some r ↔
      r ∈ rowsOf txn ∧ pk r = k := by
  rw [Processor.mem_of_caught_up hrows ledger.pairwise_toNat lives.reach lives.caught]
  refine and_congr_left fun hpk => ?_
  constructor
  · intro hr
    obtain ⟨txn', htxn', hr⟩ := List.mem_flatMap.mp hr
    have hsame : Streamed.txnVersion txn' = Streamed.txnVersion txn := by
      rw [← hv txn' r hr, hpk, hk]
    have hmem : ∀ {t}, t ∈ lives.passed → t ∈ ledger.txns := fun ht => (List.mem_filter.mp ht).1
    rwa [ledger.eq_of_version (hmem htxn') (hmem htxn) hsame] at hr
  · exact fun hr => List.mem_flatMap.mpr ⟨txn, htxn, hr⟩

end IndexerProcessors.Status
