/-
  Tundra.Usb.Framing

  Ledger's HID framing (`usb/framing.rs`).  A message travels behind its
  two-byte length in reports of 64 bytes: a channel, a tag, a sequence number
  and 59 bytes of data, the last of them padded.  The reader takes the reports
  one at a time and faces whatever a device sends; it yields a payload exactly
  when the reports so far are that payload's (`framing_exact`).
-/

import Tundra.Error
import Tundra.Bitcoin
import Tundra.Lib.Chunk
import Mathlib.Data.List.Induction

namespace Tundra
namespace Usb

open Checked Chunk

def reportBytes : Nat := 64

def maxResponseBytes : Nat := 4096

def channel : Bytes := [0x01, 0x01]

def tag : UInt8 := 0x05

def invalid : Error := .invalidInput "invalid Ledger USB report or sequence"

/-- `u16::to_be_bytes`. -/
def toBeBytes (n : Nat) : Bytes := [UInt8.ofNat (n / 256), UInt8.ofNat n]

/-- `u16::from_be_bytes`. -/
def fromBeBytes (hi lo : UInt8) : Nat := hi.toNat * 256 + lo.toNat

/-- What stands before the data of a report. -/
def header (sequence : Nat) : Bytes := channel ++ [tag] ++ toBeBytes sequence

def commandReports (apdu : Bytes) : Result (List Bytes) := do
  require (5 ≤ apdu.length ∧ apdu.length ≤ 260 ∧
    (apdu[4]?.getD 0).toNat = apdu.length - 5) invalid
  let data := toBeBytes apdu.length ++ apdu
  .ok ((chunks (reportBytes - 5) data).zipIdx.map fun (chunk, sequence) =>
    header sequence ++ pad (reportBytes - 5) 0 chunk)

structure ResponseReader where
  next : Nat := 0
  expected : Option Nat := none
  data : Bytes := []
  closed : Bool := false
  deriving DecidableEq, Repr

namespace ResponseReader

/-- Where the data of a report starts, and the size of the payload. -/
def start (reader : ResponseReader) (report : Bytes) : Result (Nat × Nat) :=
  if reader.next = 0 then do
    let size := fromBeBytes (report.getD 5 0) (report.getD 6 0)
    require (2 ≤ size ∧ size ≤ maxResponseBytes) invalid
    .ok (7, size)
  else do
    let size ← okOr reader.expected invalid
    .ok (5, size)

/-- A report that is accepted: the reader after it, and the payload when it is
    complete.  A payload that is complete is taken out of the reader. -/
def receiveInner (reader : ResponseReader) (report : Bytes) :
    Result (ResponseReader × Option Bytes) := do
  require (reader.closed = false ∧ report.length = reportBytes ∧ report.take 2 = channel ∧
    report.getD 2 0 = tag ∧ fromBeBytes (report.getD 3 0) (report.getD 4 0) = reader.next) invalid
  let (offset, size) ← reader.start report
  require (reader.data.length ≤ size) invalid
  let remaining := size - reader.data.length
  let data := reader.data ++ (report.drop offset).take (min remaining (reportBytes - offset))
  require (reader.next + 1 < 2 ^ 16) invalid
  let reader := { reader with next := reader.next + 1, expected := some size, data }
  if data.length = size then .ok ({ reader with closed := true, data := [] }, some data)
  else .ok (reader, none)

/-- `receive`: an error closes the reader. -/
def receive (reader : ResponseReader) (report : Bytes) :
    ResponseReader × Result (Option Bytes) :=
  match reader.receiveInner report with
  | .ok (reader, payload) => (reader, .ok payload)
  | .error e => ({ reader with closed := true, data := [] }, .error e)

end ResponseReader

/-- A fresh reader after some reports. -/
def after (reports : List Bytes) : ResponseReader :=
  reports.foldl (fun reader report => (reader.receive report).1) {}

/-- What the reader answers to a report, after others. -/
def answer (reports : List Bytes) (report : Bytes) : Result (Option Bytes) :=
  ((after reports).receive report).2

/-! ## Numbers in two bytes -/

theorem length_toBeBytes (n : Nat) : (toBeBytes n).length = 2 := rfl

theorem fromBeBytes_toBeBytes {n : Nat} (h : n < 2 ^ 16) :
    fromBeBytes (UInt8.ofNat (n / 256)) (UInt8.ofNat n) = n := by
  have hhi : (UInt8.ofNat (n / 256)).toNat = n / 256 :=
    UInt8.toNat_ofNat_of_lt' (show n / 256 < 256 by omega)
  have hlo : (UInt8.ofNat n).toNat = n % 256 := UInt8.toNat_ofNat'
  rw [fromBeBytes, hhi, hlo]
  omega

theorem toBeBytes_fromBeBytes (hi lo : UInt8) : toBeBytes (fromBeBytes hi lo) = [hi, lo] := by
  have hhi := hi.toNat_lt
  have hlo := lo.toNat_lt
  have hquotient : (hi.toNat * 256 + lo.toNat) / 256 = hi.toNat := by omega
  have hlow : UInt8.ofNat (hi.toNat * 256 + lo.toNat) = lo := by
    apply UInt8.toNat_inj.mp
    rw [UInt8.toNat_ofNat']
    omega
  rw [toBeBytes, fromBeBytes, hquotient, hlow, UInt8.ofNat_toNat]

theorem fromBeBytes_lt (hi lo : UInt8) : fromBeBytes hi lo < 2 ^ 16 := by
  have hhi := hi.toNat_lt
  have hlo := lo.toNat_lt
  rw [fromBeBytes]
  omega

/-! ## Reports in sequence -/

/-- The reports that carry chunks of data, numbered from `k` on. -/
def numbered (k : Nat) (chunks : List Bytes) : List Bytes :=
  (chunks.zipIdx k).map fun (chunk, sequence) => header sequence ++ chunk

/-- The reports of a payload: its length and its bytes in whole chunks, the last
    of which carries its last byte. -/
def Framed (payload : Bytes) (reports : List Bytes) : Prop :=
  2 ≤ payload.length ∧ payload.length ≤ maxResponseBytes ∧
    ∃ chunks padding, Whole 59 chunks ∧ reports = numbered 0 chunks ∧
      chunks.flatten = toBeBytes payload.length ++ payload ++ padding ∧ padding.length < 59

theorem numbered_append (k : Nat) (chunks chunks' : List Bytes) :
    numbered k (chunks ++ chunks') =
      numbered k chunks ++ numbered (k + chunks.length) chunks' := by
  rw [numbered, List.zipIdx_append, List.map_append]
  rfl

theorem length_numbered (k : Nat) (chunks : List Bytes) :
    (numbered k chunks).length = chunks.length := by
  rw [numbered, List.length_map, List.length_zipIdx]

/-- The checks of a report, as its form. -/
theorem report_iff {report : Bytes} {k : Nat} (hk : k < 2 ^ 16) :
    (report.length = reportBytes ∧ report.take 2 = channel ∧ report.getD 2 0 = tag ∧
      fromBeBytes (report.getD 3 0) (report.getD 4 0) = k) ↔
      ∃ chunk, chunk.length = 59 ∧ report = header k ++ chunk := by
  constructor
  · rintro ⟨hlength, hchannel, htag, hsequence⟩
    rcases report with _ | ⟨a, _ | ⟨b, _ | ⟨t, _ | ⟨hi, _ | ⟨lo, chunk⟩⟩⟩⟩⟩ <;>
      simp only [List.length_cons, List.length_nil, reportBytes] at hlength
    all_goals first | omega | skip
    refine ⟨chunk, by omega, ?_⟩
    have hnumber : toBeBytes k = [hi, lo] := by
      rw [← toBeBytes_fromBeBytes hi lo, ← hsequence]
      rfl
    have hfirst : [a, b] = channel := hchannel
    have hsecond : t = tag := htag
    rw [header, ← hfirst, ← hsecond, hnumber]
    rfl
  · rintro ⟨chunk, hlength, rfl⟩
    refine ⟨?_, rfl, rfl, fromBeBytes_toBeBytes hk⟩
    simp only [header, List.length_append, length_toBeBytes, hlength]
    rfl

/-! ## One report -/

namespace ResponseReader

theorem receive_closed {reader : ResponseReader} (h : reader.closed = true) (report : Bytes) :
    (reader.receive report).2 = .error invalid ∧ (reader.receive report).1.closed = true := by
  have hinner : reader.receiveInner report = .error invalid := by
    rw [receiveInner, require_of_not (by simp [h])]
    rfl
  rw [receive, hinner]
  exact ⟨rfl, rfl⟩

/-- The reader is closed by an error and by a complete payload. -/
theorem closed_receive {reader : ResponseReader} {report : Bytes}
    (h : (reader.receive report).2 ≠ .ok none) : (reader.receive report).1.closed = true := by
  rw [receive] at h ⊢
  cases hinner : reader.receiveInner report with
  | error e => rfl
  | ok out =>
      rw [hinner] at h
      simp only [receiveInner, bind_eq_ok, require_eq_ok, exists_unit] at hinner
      obtain ⟨-, ⟨offset, size⟩, -, -, -, hout⟩ := hinner
      split at hout
      · injection hout with hout
        rw [← hout]
      · injection hout with hout
        rw [← hout] at h
        exact absurd rfl h

/-- What a report in sequence leaves: `data` is everything received so far. -/
def settle (next size : Nat) (data : Bytes) : ResponseReader × Result (Option Bytes) :=
  if size ≤ data.length then (⟨next, some size, [], true⟩, .ok (some (data.take size)))
  else (⟨next, some size, data, false⟩, .ok none)

/-- A report in sequence whose payload starts at `offset` and has `size` bytes
    settles with the bytes after the offset. -/
theorem receive_settle {reader : ResponseReader} {chunk before rest : Bytes} {size : Nat}
    (hopen : reader.closed = false) (hnext : reader.next + 1 < 2 ^ 16)
    (hchunk : chunk.length = 59) (hsplit : header reader.next ++ chunk = before ++ rest)
    (hstart : reader.start (header reader.next ++ chunk) = .ok (before.length, size))
    (hdata : reader.data.length < size) :
    reader.receive (header reader.next ++ chunk) =
      settle (reader.next + 1) size (reader.data ++ rest) := by
  obtain ⟨hlength, hchannel, htag, hsequence⟩ :=
    (report_iff (k := reader.next) (by omega)).mpr ⟨chunk, hchunk, rfl⟩
  -- What stands after the offset, all of it or what the payload still needs.
  have hrest : rest.length = reportBytes - before.length := by
    rw [← hlength, hsplit, List.length_append]
    omega
  have hdrop : (header reader.next ++ chunk).drop before.length = rest := by
    rw [hsplit, List.drop_left]
  have hinner : reader.receiveInner (header reader.next ++ chunk) =
      (let data := reader.data ++ rest.take (min (size - reader.data.length) rest.length)
       if data.length = size then .ok (⟨reader.next + 1, some size, [], true⟩, some data)
       else .ok (⟨reader.next + 1, some size, data, false⟩, none)) := by
    rw [receiveInner, require_of ⟨hopen, hlength, hchannel, htag, hsequence⟩, ok_bind, hstart,
      ok_bind]
    simp only [require_of (Nat.le_of_lt hdata), ok_bind, require_of hnext, hdrop, ← hrest, hopen]
  rw [receive, hinner, settle]
  by_cases hall : size ≤ (reader.data ++ rest).length
  · rw [List.length_append] at hall
    have htaken : reader.data ++ rest.take (min (size - reader.data.length) rest.length) =
        (reader.data ++ rest).take size := by
      rw [List.take_append, List.take_of_length_le (Nat.le_of_lt hdata),
        Nat.min_eq_left (by omega)]
    simp only [htaken, List.length_take, List.length_append, Nat.min_eq_left hall, hall, if_pos]
  · rw [List.length_append] at hall
    have htaken : rest.take (min (size - reader.data.length) rest.length) = rest := by
      rw [Nat.min_eq_right (by omega), List.take_length]
    have hne : ¬ reader.data.length + rest.length = size := by omega
    simp only [htaken, List.length_append, hne, hall, if_false]

theorem receive_first {size : Nat} (hmin : 2 ≤ size) (hmax : size ≤ maxResponseBytes)
    {rest : Bytes} (hrest : rest.length = 57) :
    ({} : ResponseReader).receive (header 0 ++ (toBeBytes size ++ rest)) = settle 1 size rest := by
  have hsize : fromBeBytes ((header 0 ++ (toBeBytes size ++ rest)).getD 5 0)
      ((header 0 ++ (toBeBytes size ++ rest)).getD 6 0) = size :=
    fromBeBytes_toBeBytes (Nat.lt_of_le_of_lt hmax (by decide))
  have hstart : ({} : ResponseReader).start (header 0 ++ (toBeBytes size ++ rest)) =
      .ok ((header 0 ++ toBeBytes size).length, size) := by
    simp only [start, if_pos, hsize, require_of (And.intro hmin hmax), ok_bind]
    rfl
  exact receive_settle rfl (by decide) (by rw [List.length_append, hrest]; rfl)
    (List.append_assoc ..).symm hstart (Nat.lt_of_lt_of_le Nat.zero_lt_two hmin)

theorem receive_next {next size : Nat} {data chunk : Bytes} (hpos : 0 < next)
    (hnext : next + 1 < 2 ^ 16) (hdata : data.length < size) (hchunk : chunk.length = 59) :
    (⟨next, some size, data, false⟩ : ResponseReader).receive (header next ++ chunk) =
      settle (next + 1) size (data ++ chunk) := by
  have hstart : (⟨next, some size, data, false⟩ : ResponseReader).start (header next ++ chunk) =
      .ok ((header next).length, size) := by
    rw [start, if_neg (Nat.pos_iff_ne_zero.mp hpos)]
    rfl
  exact receive_settle rfl hnext hchunk rfl hstart hdata

/-- What is not refused is a report in sequence, and the first one says a size. -/
theorem receive_accepted {reader : ResponseReader} {report : Bytes} {payload : Option Bytes}
    (hnext : reader.next < 2 ^ 16) (h : (reader.receive report).2 = .ok payload) :
    reader.closed = false ∧ (∃ chunk, chunk.length = 59 ∧ report = header reader.next ++ chunk) ∧
      (reader.next = 0 → 2 ≤ fromBeBytes (report.getD 5 0) (report.getD 6 0) ∧
        fromBeBytes (report.getD 5 0) (report.getD 6 0) ≤ maxResponseBytes) := by
  rw [receive] at h
  cases hinner : reader.receiveInner report with
  | error e =>
      rw [hinner] at h
      cases h
  | ok out =>
      simp only [receiveInner, bind_eq_ok, require_eq_ok, exists_unit] at hinner
      obtain ⟨⟨hopen, hform⟩, _, hstart, -⟩ := hinner
      refine ⟨hopen, (report_iff hnext).mp hform, fun hfirst => ?_⟩
      simp only [start, hfirst, if_pos, bind_eq_ok, require_eq_ok, exists_unit] at hstart
      exact hstart.1

end ResponseReader

/-! ## A run of reports -/

theorem after_append (reports later : List Bytes) :
    after (reports ++ later) =
      later.foldl (fun reader report => (reader.receive report).1) (after reports) :=
  List.foldl_append

theorem after_concat (reports : List Bytes) (report : Bytes) :
    after (reports ++ [report]) = ((after reports).receive report).1 :=
  after_append reports [report]

theorem closed_after {reports : List Bytes} (h : (after reports).closed = true)
    (later : List Bytes) : (after (reports ++ later)).closed = true := by
  rw [after_append]
  generalize after reports = reader at h
  induction later generalizing reader with
  | nil => exact h
  | cons report later ih => exact ih _ (ResponseReader.receive_closed h report).2

/-- After an error, and after a payload, everything is refused. -/
theorem refused_after {reports : List Bytes} {report : Bytes}
    (h : answer reports report ≠ .ok none) (later : List Bytes) (report' : Bytes) :
    answer (reports ++ report :: later) report' = .error invalid := by
  have hclosed : (after (reports ++ [report])).closed = true := by
    rw [after_concat]
    exact ResponseReader.closed_receive h
  have hlater := closed_after hclosed later
  rw [List.append_assoc, List.singleton_append] at hlater
  exact (ResponseReader.receive_closed hlater report').1

/-- The reports of a payload of `size` bytes up to `data`, which is not all of it. -/
def Midway (size : Nat) (data : Bytes) (reports : List Bytes) : Prop :=
  2 ≤ size ∧ size ≤ maxResponseBytes ∧ data.length < size ∧
    ∃ chunks, chunks ≠ [] ∧ Whole 59 chunks ∧ reports = numbered 0 chunks ∧
      chunks.flatten = toBeBytes size ++ data

/-- A first chunk is a size and 57 bytes. -/
theorem first_chunk {chunk : Bytes} (h : chunk.length = 59) :
    ∃ rest, rest.length = 57 ∧
      chunk = toBeBytes (fromBeBytes (chunk.getD 0 0) (chunk.getD 1 0)) ++ rest := by
  rcases chunk with _ | ⟨hi, _ | ⟨lo, rest⟩⟩
  · cases h
  · cases h
  · refine ⟨rest, by simpa using h, ?_⟩
    rw [toBeBytes_fromBeBytes]
    rfl

/-- Whole chunks that spell a size and data. -/
theorem length_spelled {chunks : List Bytes} {size : Nat} {data : Bytes} (h : Whole 59 chunks)
    (hflat : chunks.flatten = toBeBytes size ++ data) : data.length + 2 = 59 * chunks.length := by
  rw [← h.length_flatten, hflat, List.length_append, length_toBeBytes, Nat.add_comm]

theorem numbered_concat (chunks : List Bytes) (chunk : Bytes) :
    numbered 0 (chunks ++ [chunk]) = numbered 0 chunks ++ [header chunks.length ++ chunk] := by
  rw [numbered_append, Nat.zero_add]
  rfl

/-- The data of all chunks but the last. -/
theorem spelled_init {chunks : List Bytes} {chunk : Bytes} {size : Nat} {data : Bytes}
    (hne : chunks ≠ []) (hwhole : Whole 59 (chunks ++ [chunk]))
    (hflat : (chunks ++ [chunk]).flatten = toBeBytes size ++ data) :
    ∃ data', chunks.flatten = toBeBytes size ++ data' ∧ data = data' ++ chunk := by
  have hlength := (Whole.append.mp hwhole).1.length_flatten
  have hpos := List.length_pos_iff.mpr hne
  rw [List.flatten_append, List.flatten_singleton] at hflat
  refine List.append_eq_append_iff.mp hflat |>.elim ?_ ?_
  · -- The first chunks are longer than a size.
    rintro ⟨middle, hsize, -⟩
    have hshort := congrArg List.length hsize
    rw [length_toBeBytes, List.length_append] at hshort
    omega
  · rintro ⟨data', hfirst, hdata⟩
    exact ⟨data', hfirst, hdata⟩

theorem after_midway {size : Nat} {data : Bytes} {reports : List Bytes}
    (h : Midway size data reports) :
    after reports = ⟨reports.length, some size, data, false⟩ := by
  obtain ⟨hmin, hmax, hdata, chunks, hne, hwhole, rfl, hflat⟩ := h
  -- Over the chunks from the last one back: each report settles with data that
  -- is still short of the size.
  induction chunks using List.reverseRecOn generalizing data with
  | nil => exact absurd rfl hne
  | append_singleton chunks chunk ih =>
      have hbound : 59 * (chunks ++ [chunk]).length < 2 ^ 13 := by
        have hlength := length_spelled hwhole hflat
        simp only [maxResponseBytes] at hmax
        omega
      rw [List.length_append, List.length_singleton] at hbound
      have hchunk : chunk.length = 59 :=
        hwhole chunk (List.mem_append_right _ (List.mem_singleton_self _))
      rw [numbered_concat, after_concat, List.length_append, length_numbered, List.length_singleton]
      by_cases hfirst : chunks = []
      · subst hfirst
        have hspelled : chunk = toBeBytes size ++ data := by
          rw [← hflat]
          simp
        have hrest : data.length = 57 := by
          rw [hspelled, List.length_append, length_toBeBytes] at hchunk
          omega
        show (({} : ResponseReader).receive (header 0 ++ chunk)).1 = _
        rw [hspelled, ResponseReader.receive_first hmin hmax hrest, ResponseReader.settle,
          if_neg (by omega)]
        rfl
      · obtain ⟨data', hflat', rfl⟩ := spelled_init hfirst hwhole hflat
        rw [List.length_append] at hdata
        have hpos := List.length_pos_iff.mpr hfirst
        rw [ih (by omega) hfirst (Whole.append.mp hwhole).1 hflat', length_numbered,
          ResponseReader.receive_next hpos (by omega) (by omega) hchunk, ResponseReader.settle,
          if_neg (by rw [List.length_append]; omega)]

/-- Whole chunks that carry a size and at least that much data, the last byte of
    it in the last chunk. -/
theorem framed_concat {chunks : List Bytes} {chunk data : Bytes} {size : Nat} (hmin : 2 ≤ size)
    (hmax : size ≤ maxResponseBytes) (hwhole : Whole 59 (chunks ++ [chunk]))
    (hflat : (chunks ++ [chunk]).flatten = toBeBytes size ++ data) (hall : size ≤ data.length)
    (hlast : data.length < size + 59) :
    Framed (data.take size) (numbered 0 chunks ++ [header chunks.length ++ chunk]) := by
  have hlength : (data.take size).length = size := List.length_take_of_le hall
  refine ⟨hlength.symm ▸ hmin, hlength.symm ▸ hmax, chunks ++ [chunk], data.drop size, hwhole,
    (numbered_concat chunks chunk).symm, ?_, ?_⟩
  · rw [hflat, hlength, List.append_assoc, List.take_append_drop]
  · rw [List.length_drop]
    omega

/-- An accepted report, at the start or midway: it goes on or completes. -/
theorem answer_ok {reports : List Bytes} {report : Bytes} {payload : Option Bytes}
    (hreports : reports = [] ∨ ∃ size data, Midway size data reports)
    (h : answer reports report = .ok payload) :
    (payload = none ∧ ∃ size data, Midway size data (reports ++ [report])) ∨
      ∃ p, payload = some p ∧ Framed p (reports ++ [report]) := by
  rcases hreports with rfl | ⟨size, data, hmidway⟩
  · obtain ⟨-, ⟨chunk, hchunk, rfl⟩, hsize⟩ := ResponseReader.receive_accepted (by decide) h
    obtain ⟨hmin, hmax⟩ := hsize rfl
    obtain ⟨rest, hrest, hspelled⟩ := first_chunk hchunk
    -- The size is read where the chunk starts.
    generalize hsizeEq : fromBeBytes (chunk.getD 0 0) (chunk.getD 1 0) = size at hspelled
    change 2 ≤ fromBeBytes (chunk.getD 0 0) (chunk.getD 1 0) at hmin
    change fromBeBytes (chunk.getD 0 0) (chunk.getD 1 0) ≤ maxResponseBytes at hmax
    rw [hsizeEq] at hmin hmax
    have hwhole : Whole 59 ([] ++ [chunk]) := List.forall_mem_singleton.mpr hchunk
    have hflat : ([] ++ [chunk]).flatten = toBeBytes size ++ rest := by
      rw [← hspelled]
      simp
    change (({} : ResponseReader).receive (header 0 ++ chunk)).2 = _ at h
    rw [hspelled, ResponseReader.receive_first hmin hmax hrest, ResponseReader.settle] at h
    split at h
    · next hall =>
        injection h with h
        exact .inr ⟨_, h.symm, framed_concat hmin hmax hwhole hflat hall (by omega)⟩
    · next hall =>
        injection h with h
        exact .inl ⟨h.symm, size, rest, hmin, hmax, by omega, [chunk], List.cons_ne_nil _ _,
          hwhole, rfl, hflat⟩
  · have hafter := after_midway hmidway
    obtain ⟨hmin, hmax, hdata, chunks, hne, hwhole, rfl, hflat⟩ := hmidway
    have hspelled := length_spelled hwhole hflat
    have hpos := List.length_pos_iff.mpr hne
    have hbound : chunks.length + 1 < 2 ^ 16 := by
      simp only [maxResponseBytes] at hmax
      omega
    rw [length_numbered] at hafter
    rw [answer, hafter] at h
    obtain ⟨-, ⟨chunk, hchunk, rfl⟩, -⟩ :=
      ResponseReader.receive_accepted (Nat.lt_of_succ_lt hbound) h
    rw [ResponseReader.receive_next hpos hbound hdata hchunk, ResponseReader.settle] at h
    have hwhole' : Whole 59 (chunks ++ [chunk]) :=
      Whole.append.mpr ⟨hwhole, List.forall_mem_singleton.mpr hchunk⟩
    have hflat' : (chunks ++ [chunk]).flatten = toBeBytes size ++ (data ++ chunk) := by
      rw [List.flatten_append, hflat, List.flatten_singleton, List.append_assoc]
    split at h
    · next hall =>
        injection h with h
        refine .inr ⟨_, h.symm, framed_concat hmin hmax hwhole' hflat' hall ?_⟩
        rw [List.length_append]
        omega
    · next hall =>
        injection h with h
        exact .inl ⟨h.symm, size, data ++ chunk, hmin, hmax, by omega, chunks ++ [chunk],
          by simp, hwhole', (numbered_concat chunks chunk).symm, hflat'⟩

/-- Where a reader can be: at the start, closed, or midway in a payload. -/
theorem after_cases (reports : List Bytes) :
    (after reports).closed = true ∨ reports = [] ∨ ∃ size data, Midway size data reports := by
  induction reports using List.reverseRecOn with
  | nil => exact .inr (.inl rfl)
  | append_singleton reports report ih =>
      rcases ih with hclosed | hopen
      · exact .inl (closed_after hclosed [report])
      · by_cases hgoes : answer reports report = .ok none
        · rcases answer_ok hopen hgoes with ⟨-, hmidway⟩ | ⟨p, hp, -⟩
          · exact .inr (.inr hmidway)
          · cases hp
        · rw [after_concat]
          exact .inl (ResponseReader.closed_receive hgoes)

theorem framed_of_answer {reports : List Bytes} {report p : Bytes}
    (h : answer reports report = .ok (some p)) : Framed p (reports ++ [report]) := by
  rcases after_cases reports with hclosed | hopen
  · have hrefused := (ResponseReader.receive_closed hclosed report).1
    rw [answer, hrefused] at h
    cases h
  · rcases answer_ok hopen h with ⟨hnone, -⟩ | ⟨p', hp, hframed⟩
    · cases hnone
    · injection hp with hp
      exact hp ▸ hframed

/-- The last report of a payload, and those before it. -/
theorem framed_last {reports : List Bytes} {report p : Bytes}
    (h : Framed p (reports ++ [report])) :
    ∃ chunks chunk padding, Whole 59 (chunks ++ [chunk]) ∧ reports = numbered 0 chunks ∧
      report = header chunks.length ++ chunk ∧
      (chunks ++ [chunk]).flatten = toBeBytes p.length ++ (p ++ padding) ∧ padding.length < 59 := by
  obtain ⟨-, -, chunks, padding, hwhole, hreports, hflat, hpadding⟩ := h
  rcases List.eq_nil_or_concat' chunks with rfl | ⟨init, chunk, rfl⟩
  · exact absurd hreports (by simp [numbered])
  · rw [numbered_concat] at hreports
    obtain ⟨hinit, hlast⟩ := List.append_inj' hreports rfl
    injection hlast with hlast
    exact ⟨init, chunk, padding, hwhole, hinit, hlast, by rw [hflat, List.append_assoc], hpadding⟩

theorem receive_framed {reports : List Bytes} {report p : Bytes}
    (h : Framed p (reports ++ [report])) :
    (after reports).receive report =
      (⟨reports.length + 1, some p.length, [], true⟩, .ok (some p)) := by
  have hmin := h.1
  have hmax := h.2.1
  obtain ⟨chunks, chunk, padding, hwhole, rfl, rfl, hflat, hpadding⟩ := framed_last h
  have hspelled := length_spelled hwhole hflat
  have hchunk : chunk.length = 59 :=
    hwhole chunk (List.mem_append_right _ (List.mem_singleton_self _))
  rw [List.length_append, List.length_append, List.length_singleton] at hspelled
  rw [length_numbered]
  by_cases hfirst : chunks = []
  · subst hfirst
    have hone : chunk = toBeBytes p.length ++ (p ++ padding) := by
      rw [← hflat]
      simp
    have hrest : (p ++ padding).length = 57 := by
      rw [List.length_append]
      simp only [List.length_nil] at hspelled
      omega
    show ({} : ResponseReader).receive (header 0 ++ chunk) = _
    rw [hone, ResponseReader.receive_first hmin hmax hrest, ResponseReader.settle,
      if_pos (by rw [List.length_append]; omega), List.take_left]
    rfl
  · obtain ⟨data, hinit, hdata⟩ := spelled_init hfirst hwhole hflat
    have hpos := List.length_pos_iff.mpr hfirst
    have hlength := congrArg List.length hdata
    rw [List.length_append, List.length_append] at hlength
    have hmidway : Midway p.length data (numbered 0 chunks) :=
      ⟨hmin, hmax, by omega, chunks, hfirst, (Whole.append.mp hwhole).1, rfl, hinit⟩
    have hbound : chunks.length + 1 < 2 ^ 16 := by
      simp only [maxResponseBytes] at hmax
      omega
    rw [after_midway hmidway, length_numbered,
      ResponseReader.receive_next hpos hbound (by omega) hchunk, ResponseReader.settle, ← hdata,
      if_pos (by rw [List.length_append]; omega), List.take_left]

theorem answer_framed {reports : List Bytes} {report p : Bytes}
    (h : Framed p (reports ++ [report])) : answer reports report = .ok (some p) := by
  rw [answer, receive_framed h]

theorem answer_iff {reports : List Bytes} {report p : Bytes} :
    answer reports report = .ok (some p) ↔ Framed p (reports ++ [report]) :=
  ⟨framed_of_answer, answer_framed⟩

/-- The padding of the last report is not part of the payload. -/
theorem framed_padding {reports : List Bytes} {report report' p : Bytes}
    (h : Framed p (reports ++ [report])) (hlength : report'.length = reportBytes)
    (hcarried : report'.take (reportBytes - (59 * (reports.length + 1) - (p.length + 2))) =
      report.take (reportBytes - (59 * (reports.length + 1) - (p.length + 2)))) :
    Framed p (reports ++ [report']) := by
  have hbounds : 2 ≤ p.length ∧ p.length ≤ maxResponseBytes := ⟨h.1, h.2.1⟩
  obtain ⟨chunks, chunk, padding, hwhole, rfl, rfl, hflat, hpadding⟩ := framed_last h
  have hspelled := length_spelled hwhole hflat
  rw [List.length_append, List.length_append, List.length_singleton] at hspelled
  have hinit := (Whole.append.mp hwhole).1
  have hchunk : chunk.length = 59 :=
    hwhole chunk (List.mem_append_right _ (List.mem_singleton_self _))
  -- The padding is what the whole chunks have over the payload.
  have hover : 59 * (chunks.length + 1) - (p.length + 2) = padding.length := by omega
  rw [length_numbered, hover] at hcarried
  have hheader : (header chunks.length).length = 5 := rfl
  have hkept : reportBytes - padding.length = 5 + (59 - padding.length) := by
    rw [reportBytes]
    omega
  rw [hkept, ← hheader, List.take_append, List.take_of_length_le (Nat.le_add_right ..),
    Nat.add_sub_cancel_left] at hcarried
  -- The other report has the same header, and its data starts the same.
  let chunk' := report'.drop 5
  have hsplit : report' = header chunks.length ++ chunk' := by
    have hstart := congrArg (List.take 5) hcarried
    rw [List.take_take, Nat.min_eq_left (by omega), ← hheader, List.take_left, hheader] at hstart
    rw [← hstart, List.take_append_drop]
  have hchunk' : chunk'.length = 59 := by
    rw [List.length_drop, hlength]
    rfl
  have hsame : chunk'.take (59 - padding.length) = chunk.take (59 - padding.length) := by
    rw [hsplit, List.take_append, List.take_of_length_le (Nat.le_add_right ..),
      Nat.add_sub_cancel_left] at hcarried
    exact List.append_cancel_left hcarried
  have hdata : chunks.flatten ++ chunk.take (59 - padding.length) =
      toBeBytes p.length ++ p := by
    have htotal : (chunks.flatten ++ chunk).length - padding.length =
        chunks.flatten.length + (59 - padding.length) := by
      rw [List.length_append, hchunk]
      omega
    rw [List.flatten_append, List.flatten_singleton, ← List.append_assoc] at hflat
    have hcut := congrArg (fun l => l.take (l.length - padding.length)) hflat
    have hlength : (toBeBytes p.length ++ p ++ padding).length - padding.length =
        (toBeBytes p.length ++ p).length := by
      rw [List.length_append, Nat.add_sub_cancel]
    rw [htotal, hlength, List.take_left, List.take_append, List.take_of_length_le (Nat.le_add_right ..),
      Nat.add_sub_cancel_left] at hcut
    exact hcut
  refine ⟨hbounds.1, hbounds.2, chunks ++ [chunk'], chunk'.drop (59 - padding.length),
    Whole.append.mpr ⟨hinit, List.forall_mem_singleton.mpr hchunk'⟩, ?_, ?_, ?_⟩
  · rw [numbered_concat, ← hsplit]
  · rw [List.flatten_append, List.flatten_singleton, ← hdata, ← hsame, List.append_assoc,
      List.take_append_drop]
  · rw [List.length_drop, hchunk']
    omega

/-- Before the last report of a payload the reader waits. -/
theorem answer_before {p report : Bytes} {init rest : List Bytes}
    (h : Framed p (init ++ report :: rest)) (hrest : rest ≠ []) :
    answer init report = .ok none := by
  obtain ⟨middle, last, rfl⟩ := (List.eq_nil_or_concat' rest).resolve_left hrest
  have hframed : Framed p ((init ++ report :: middle) ++ [last]) := by
    rwa [List.append_assoc, List.cons_append]
  -- Otherwise the last report would be refused, and it yields the payload.
  by_contra hwaits
  have hrefused := refused_after hwaits middle last
  rw [answer_framed hframed] at hrefused
  cases hrefused

theorem framed_commandReports {apdu : Bytes} {frames : List Bytes}
    (h : commandReports apdu = .ok frames) : Framed apdu frames := by
  simp only [commandReports, bind_eq_ok, require_eq_ok, exists_unit] at h
  obtain ⟨⟨hmin, hmax, -⟩, hframes⟩ := h
  injection hframes with hframes
  let data := toBeBytes apdu.length ++ apdu
  obtain ⟨k, hflat, hk⟩ := flatten_pad (show 0 < 59 by decide) 0 data
  refine ⟨by omega, by rw [maxResponseBytes]; omega, (chunks 59 data).map (pad 59 0),
    List.replicate k 0, whole_pad (by decide) 0 data, ?_, hflat, by rwa [List.length_replicate]⟩
  rw [← hframes, numbered, List.zipIdx_map, List.map_map]
  rfl

/-- Reading is the inverse of framing, at every sequence of reports. -/
theorem framing_exact :
    (∀ reports report p,
      answer reports report = .ok (some p) ↔ Framed p (reports ++ [report])) ∧
    (∀ reports report later report', answer reports report ≠ .ok none →
      answer (reports ++ report :: later) report' = .error invalid) ∧
    (∀ reports report report' p, answer reports report = .ok (some p) →
      report'.length = reportBytes →
      (let padding := 59 * (reports.length + 1) - (p.length + 2)
       report'.take (reportBytes - padding) = report.take (reportBytes - padding)) →
      (after reports).receive report' = (after reports).receive report) ∧
    ∀ apdu frames, commandReports apdu = .ok frames →
      ∃ reports report, frames = reports ++ [report] ∧
        answer reports report = .ok (some apdu) ∧
        ∀ init next rest, reports = init ++ next :: rest → answer init next = .ok none := by
  refine ⟨fun _ _ _ => answer_iff, fun _ _ later report' h => refused_after h later report',
    fun reports report report' p h hlength hcarried => ?_, fun apdu frames h => ?_⟩
  · have hframed := framed_of_answer h
    rw [receive_framed hframed, receive_framed (framed_padding hframed hlength hcarried)]
  · have hframed := framed_commandReports h
    obtain ⟨reports, report, rfl⟩ := (List.eq_nil_or_concat' frames).resolve_left (by
      rintro rfl
      obtain ⟨-, -, chunks, padding, -, hnone, hflat, -⟩ := hframed
      have hempty : chunks.length = 0 := by
        rw [← length_numbered 0 chunks, ← hnone]
        rfl
      rw [List.length_eq_zero_iff.mp hempty] at hflat
      cases hflat)
    refine ⟨reports, report, rfl, answer_framed hframed, ?_⟩
    rintro init next rest rfl
    rw [List.append_assoc, List.cons_append] at hframed
    exact answer_before hframed (by simp)

end Usb
end Tundra
