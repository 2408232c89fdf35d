/-
  Tundra.Qr.Reassembly

  BBQr reassembly.  A session that reads frames of one set holds the parts it
  has seen (`Gathering`), whatever their order and however often they come; the
  last missing one has it read the parts in order (`reassembled`).  A frame of
  another set fails it.
-/

import Tundra.Lib.Gather
import Tundra.Qr.Session

namespace Tundra
namespace Qr

open Checked Relational Signing Gather

variable {State Wallet Scan Decoder Encoder : Type} (env : Env State Wallet Scan)
  (qr : QrCrates Decoder Encoder)

/-! ## Frames and sightings -/

/-- A frame before the camera, and the two clock readings. -/
structure Sighting where
  frame : String
  now : Nat
  later : Nat

def scan (d : QrDecoder Decoder) (sightings : List Sighting) : QrDecoder Decoder :=
  sightings.foldl (fun d s => (receive env qr d s.frame s.now s.later).2) d

/-- The sightings stay within the time, the frames and the bytes of a session. -/
structure SessionBudget (start : Nat) (sightings : List Sighting) : Prop where
  time : ∀ s ∈ sightings, s.now - start ≤ sessionLifetime ∧ s.later - start ≤ sessionLifetime
  count : sightings.length ≤ maxFrames
  bytes : (sightings.map (fun s => s.frame.utf8ByteSize)).sum ≤ maxScannedBytes

/-- And no frame is too long. -/
structure InBudget (start : Nat) (sightings : List Sighting) : Prop
    extends SessionBudget start sightings where
  frame : ∀ s ∈ sightings, s.frame.utf8ByteSize ≤ maxFrameCharacters

/-- A frame of a set: a header and the decoded parts, one for each index. -/
structure IsPart (purpose : QrPurpose) (header : Header) (parts : List Bytes) (i : Nat)
    (frame : String) : Prop where
  bbqr : isBbqr frame = true
  part : ∃ v, parts[i]? = some v ∧ bbqrPart qr purpose frame = .ok (header, i, v)

/-- What the parts of a set are read as: their concatenation by index, inflated
    when the header says so, as the purpose takes it. -/
def reassembled (purpose : QrPurpose) (header : Header) (parts : List Bytes) : Result Bytes := do
  let data ← unpack qr header.encoding parts.flatten
  require (¬ data.length > maxQrPayloadBytes) limit
  validate env purpose data (decide (purpose = .signedPsbt))

/-- The session has read the whole set. -/
def Attempted (purpose : QrPurpose) (header : Header) (parts : List Bytes)
    (d : QrDecoder Decoder) : Prop :=
  match reassembled env qr purpose header parts with
  | .ok bytes =>
      d.stream = .payload bytes ∧ d.progress =
        { phase := .complete
          resolvedFragments := header.numParts
          totalFragments := some header.numParts }
  | .error _ =>
      d.stream = .empty ∧ d.progress =
        { phase := .failed
          resolvedFragments := header.numParts
          totalFragments := some header.numParts }

/-- A session that is scanning after some sightings. -/
structure Scanning (purpose : QrPurpose) (start : Nat) (done : List Sighting)
    (d : QrDecoder Decoder) : Prop where
  purpose : d.purpose = purpose
  started : d.started = start
  frames : d.frames = done.length
  bytes : d.bytes = (done.map (fun s => s.frame.utf8ByteSize)).sum
  phase : d.progress.phase = .scanning

/-- A session that has seen some parts of a set. -/
structure Gathering (purpose : QrPurpose) (start : Nat) (header : Header) (parts : List Bytes)
    (done : List Sighting) (seen : Finset Nat) (d : QrDecoder Decoder) : Prop
    extends Scanning purpose start done d where
  stream : ∃ stream, bbqrStream d.stream header = .ok stream ∧
    Filled parts seen stream.parts ∧ stream.bytes = weight List.length parts seen
  resolved : d.progress.resolvedFragments = seen.card
  total : d.progress.totalFragments = if seen = ∅ then none else some header.numParts

section Reading

variable {env} {qr} {d : QrDecoder Decoder} {purpose : QrPurpose} {start : Nat} {header : Header}
  {parts : List Bytes}

theorem isUr_of_isBbqr {frame : String} (h : isBbqr frame = true) : isUr frame = false := by
  rw [isBbqr, List.isPrefixOf_iff_prefix] at h
  obtain ⟨rest, hrest⟩ := h
  rw [isUr, ← Bool.not_eq_true, List.isPrefixOf_iff_prefix]
  rintro ⟨tail, htail⟩
  have hlower : frame.toLower.toList = frame.toList.map Char.toLower := String.toList_map
  rw [hlower, ← hrest] at htail
  exact absurd (List.cons.inj htail).1 (by decide)

/-- A BBQr frame within the budget is looked into. -/
theorem receiveInner_bbqr {frame : String} {now : Nat} (hbudget : WithinBudget d frame now)
    (hbbqr : isBbqr frame = true) : receiveInner env qr d frame now =
      receiveBbqr env qr
        { d with frames := d.frames + 1, bytes := d.bytes + frame.utf8ByteSize } frame := by
  obtain ⟨-, htime, hframes, hsize, hbytes⟩ := hbudget
  have hne : frame ≠ "" := by
    rintro rfl
    exact absurd hbbqr (by decide)
  have hlimits : ¬ (now - d.started > sessionLifetime ∨ d.frames ≥ maxFrames ∨
      frame.utf8ByteSize > maxFrameCharacters) := by omega
  have hscanned : ¬ d.bytes + frame.utf8ByteSize > maxScannedBytes := by omega
  rw [receiveInner, if_neg hlimits]
  dsimp only
  rw [if_neg hscanned, if_neg hne, isUr_of_isBbqr hbbqr, hbbqr, if_neg Bool.false_ne_true,
    if_pos rfl]

theorem scanning_new : Scanning purpose start [] (.new purpose start : QrDecoder Decoder) :=
  ⟨rfl, rfl, rfl, rfl, rfl⟩

theorem gathering_new :
    Gathering purpose start header parts [] ∅ (.new purpose start : QrDecoder Decoder) where
  toScanning := scanning_new
  stream := ⟨_, rfl, filled_empty, rfl⟩
  resolved := rfl
  total := rfl

/-- A frame of the set within the budget, before the set is complete. -/
structure NextPart (qr : QrCrates Decoder Encoder) (purpose : QrPurpose) (start : Nat)
    (header : Header) (parts : List Bytes) (done : List Sighting) (i : Nat) (s : Sighting) :
    Prop where
  part : IsPart qr purpose header parts i s.frame
  budget : InBudget start (done ++ [s])

variable {done : List Sighting} {seen : Finset Nat} {i : Nat} {s : Sighting}

theorem Scanning.withinBudget (h : Scanning purpose start done d)
    (hbudget : InBudget start (done ++ [s])) : WithinBudget d s.frame s.now := by
  have hin : s ∈ done ++ [s] := List.mem_append_right _ List.mem_cons_self
  have hcount := hbudget.count
  have hbytes := hbudget.bytes
  simp only [List.length_append, List.length_singleton, List.map_append, List.sum_append,
    List.map_singleton, List.sum_singleton] at hcount hbytes
  refine ⟨h.phase, by rw [h.started]; exact (hbudget.time s hin).1, ?_, hbudget.frame s hin, ?_⟩
  · rw [h.frames]
    omega
  · rw [h.bytes]
    exact hbytes

/-- One more sighting, after which the session goes on. -/
theorem Scanning.next (h : Scanning purpose start done d) (s : Sighting) {e : QrDecoder Decoder}
    (hpurpose : e.purpose = d.purpose) (hstarted : e.started = d.started)
    (hframes : e.frames = d.frames + 1) (hbytes : e.bytes = d.bytes + s.frame.utf8ByteSize)
    (hphase : e.progress.phase = .scanning) : Scanning purpose start (done ++ [s]) e where
  purpose := hpurpose.trans h.purpose
  started := hstarted.trans h.started
  frames := by rw [hframes, h.frames, List.length_append, List.length_singleton]
  bytes := by rw [hbytes, h.bytes, List.map_append, List.sum_append, List.map_singleton,
    List.sum_singleton]
  phase := hphase

/-- A session that goes on scanning does not expire within the budget. -/
theorem expire_later {e : QrDecoder Decoder} (hstarted : e.started = start)
    (hbudget : InBudget start (done ++ [s])) : e.expire s.later = e := by
  have hin : s ∈ done ++ [s] := List.mem_append_right _ List.mem_cons_self
  have hlater := (hbudget.time s hin).2
  refine if_neg fun hexpired => ?_
  rw [hstarted] at hexpired
  omega

/-- A frame that is accepted before the session expires. -/
theorem receive_of_ok {d' : QrDecoder Decoder} {frame : String} {now later : Nat}
    (hphase : d.progress.phase = .scanning)
    (hinner : receiveInner env qr d frame now = (.ok (), d')) (hlater : d'.expire later = d') :
    receive env qr d frame now later = (.ok d'.progress, d') := by
  rw [receive, if_neg (not_not.mpr hphase), hinner]
  dsimp only
  rw [hlater]

/-- A frame that is refused. -/
theorem receive_of_error {d' : QrDecoder Decoder} {frame : String} {now later : Nat} {e : Error}
    (hphase : d.progress.phase = .scanning)
    (hinner : receiveInner env qr d frame now = (.error e, d')) :
    receive env qr d frame now later =
      (.error e,
        { d' with
          stream := .empty
          progress := { d'.progress with phase := .failed } }) := by
  rw [receive, if_neg (not_not.mpr hphase), hinner]

variable (env) in
/-- A part that has been seen changes nothing but the counts of frames. -/
theorem Gathering.repeated (h : Gathering purpose start header parts done seen d)
    (hnext : NextPart qr purpose start header parts done i s) (hi : i ∈ seen) :
    ∃ progress, (receive env qr d s.frame s.now s.later).1 = .ok progress ∧
      Gathering purpose start header parts (done ++ [s]) seen
        (receive env qr d s.frame s.now s.later).2 := by
  obtain ⟨hbbqr, v, hv, hpart⟩ := hnext.part
  have hpart' : bbqrPart qr d.purpose s.frame = .ok (header, i, v) := h.purpose.symm ▸ hpart
  obtain ⟨stream, hstream, hfilled, hweight⟩ := h.stream
  have hrow : stream.parts[i]? = some v := by rw [hfilled.get, if_pos hi, hv]
  let d₁ : QrDecoder Decoder :=
    { d with frames := d.frames + 1, bytes := d.bytes + s.frame.utf8ByteSize }
  have hinner : receiveInner env qr d s.frame s.now = (.ok (), d₁) := by
    rw [receiveInner_bbqr (h.toScanning.withinBudget hnext.budget) hbbqr, receiveBbqr]
    dsimp only
    rw [hpart', ok_bind]
    dsimp only
    rw [hstream, ok_bind]
    dsimp only
    rw [hrow]
    dsimp only
    rw [if_neg (not_not.mpr rfl)]
  rw [receive_of_ok h.phase hinner (expire_later h.started hnext.budget)]
  exact ⟨_, rfl, h.toScanning.next s rfl rfl rfl rfl h.phase, ⟨stream, hstream, hfilled, hweight⟩,
    h.resolved, h.total⟩

variable (env) in
/-- A session with one more part; its stream holds a row for each index. -/
theorem Gathering.fresh (h : Gathering purpose start header parts done seen d)
    (hnext : NextPart qr purpose start header parts done i s) (hi : i ∉ seen)
    (hsize : (parts.map List.length).sum ≤ maxQrPayloadBytes) :
    ∃ stream : BbqrStream, stream.header = header ∧ Filled parts (insert i seen) stream.parts ∧
      stream.bytes = weight List.length parts (insert i seen) ∧
      receiveInner env qr d s.frame s.now =
        (let d : QrDecoder Decoder :=
          { d with
            frames := d.frames + 1
            bytes := d.bytes + s.frame.utf8ByteSize
            stream := .bbqr stream
            progress := { d.progress with
              resolvedFragments := (insert i seen).card
              totalFragments := some header.numParts } }
        if (insert i seen).card = header.numParts then
          match assemble qr stream with
          | .error e => (.error e, d)
          | .ok data => finish env d data (decide (d.purpose = .signedPsbt))
        else (.ok (), d)) := by
  obtain ⟨hbbqr, v, hv, hpart⟩ := hnext.part
  have hpart' : bbqrPart qr d.purpose s.frame = .ok (header, i, v) := h.purpose.symm ▸ hpart
  obtain ⟨stream, hstream, hfilled, hweight⟩ := h.stream
  have hheader := (bbqrStream_eq_ok hstream).1
  have hrow : stream.parts[i]? = none := by rw [hfilled.get, if_neg hi]
  have hnew := hfilled.insert hv
  have hbytes : stream.bytes + v.length = weight List.length parts (insert i seen) := by
    rw [weight_insert hi hv, hweight]
  have hfits : ¬ stream.bytes + v.length > maxQrPayloadBytes := by
    have hle : weight List.length parts (insert i seen) ≤ (parts.map List.length).sum :=
      weight_le hnew.bound
    omega
  refine ⟨{ header, parts := stream.parts.insert i v, bytes := stream.bytes + v.length },
    rfl, hnew, hbytes, ?_⟩
  rw [receiveInner_bbqr (h.toScanning.withinBudget hnext.budget) hbbqr, receiveBbqr]
  dsimp only
  rw [hpart', ok_bind]
  dsimp only
  rw [hstream, ok_bind]
  dsimp only
  rw [hrow]
  dsimp only
  rw [if_neg hfits, hnew.size]
  subst hheader
  rfl

/-- Not all indices have been seen. -/
def Missing (parts : List Bytes) (seen : Finset Nat) : Prop := ∃ i < parts.length, i ∉ seen

theorem card_eq_iff {stream : BbqrStream} (hfilled : Filled parts seen stream.parts) :
    seen.card = parts.length ↔ ¬ Missing parts seen := by
  rw [← hfilled.size]
  constructor
  · intro hcard hmiss
    exact absurd hcard (hfilled.size_lt hmiss).ne
  · intro hall
    refine hfilled.size_eq fun i hi => ?_
    by_contra hnot
    exact hall ⟨i, hi, hnot⟩

variable (env) in
/-- While a part is missing, a new one is one more. -/
theorem Gathering.more (h : Gathering purpose start header parts done seen d)
    (hnext : NextPart qr purpose start header parts done i s) (hi : i ∉ seen)
    (hcount : parts.length = header.numParts)
    (hsize : (parts.map List.length).sum ≤ maxQrPayloadBytes)
    (hmiss : Missing parts (insert i seen)) :
    ∃ progress, (receive env qr d s.frame s.now s.later).1 = .ok progress ∧
      Gathering purpose start header parts (done ++ [s]) (insert i seen)
        (receive env qr d s.frame s.now s.later).2 := by
  obtain ⟨stream, hheader, hfilled, hweight, hinner⟩ := h.fresh env hnext hi hsize
  have hcard : (insert i seen).card ≠ header.numParts := by
    rw [← hcount]
    exact mt (card_eq_iff hfilled).mp (not_not.mpr hmiss)
  dsimp only at hinner
  rw [if_neg hcard] at hinner
  have hreceive := receive_of_ok h.phase hinner (expire_later h.started hnext.budget)
  rw [hreceive]
  refine ⟨_, rfl, h.toScanning.next s rfl rfl rfl rfl h.phase, ⟨stream, ?_, hfilled, hweight⟩,
    rfl, ?_⟩
  · rw [bbqrStream, if_pos hheader]
  · rw [if_neg (Finset.insert_ne_empty i seen)]

variable (env) in
/-- The last missing part has the session read the set. -/
theorem Gathering.last (h : Gathering purpose start header parts done seen d)
    (hnext : NextPart qr purpose start header parts done i s) (hi : i ∉ seen)
    (hcount : parts.length = header.numParts)
    (hsize : (parts.map List.length).sum ≤ maxQrPayloadBytes)
    (hall : ¬ Missing parts (insert i seen)) :
    Attempted env qr purpose header parts (receive env qr d s.frame s.now s.later).2 := by
  obtain ⟨stream, hheader, hfilled, hweight, hinner⟩ := h.fresh env hnext hi hsize
  have hcard : (insert i seen).card = header.numParts := by
    rw [← hcount]
    exact (card_eq_iff hfilled).mpr hall
  have hassemble : assemble qr stream = unpack qr header.encoding parts.flatten := by
    have hvalues : stream.parts.toList.map Prod.snd = parts := hfilled.values fun j hj => by
      by_contra hnot
      exact hall ⟨j, hj, hnot⟩
    rw [assemble, hvalues, hheader]
  dsimp only at hinner
  rw [if_pos hcard, hassemble, hcard, h.purpose] at hinner
  unfold Attempted reassembled
  cases hdata : unpack qr header.encoding parts.flatten with
  | error e =>
      rw [hdata] at hinner
      rw [receive_of_error h.phase hinner, error_bind]
      exact ⟨rfl, rfl⟩
  | ok data =>
      rw [hdata] at hinner
      dsimp only at hinner
      rw [ok_bind]
      by_cases hfits : data.length > maxQrPayloadBytes
      · rw [finish, if_pos hfits] at hinner
        rw [receive_of_error h.phase hinner, require_of_not (not_not.mpr hfits), error_bind]
        exact ⟨rfl, rfl⟩
      · rw [finish, if_neg hfits] at hinner
        dsimp only at hinner
        rw [require_of hfits, ok_bind]
        cases hvalid : validate env purpose data (decide (purpose = .signedPsbt)) with
        | error e =>
            rw [hvalid] at hinner
            rw [receive_of_error h.phase hinner]
            exact ⟨rfl, rfl⟩
        | ok bytes =>
            rw [hvalid] at hinner
            rw [receive_of_ok h.phase hinner (if_neg fun hscan => nomatch hscan.1)]
            exact ⟨rfl, rfl⟩

/-! ## Runs -/

theorem InBudget.of_append {a b : List Sighting} (h : InBudget start (a ++ b)) :
    InBudget start a where
  time s hs := h.time s (List.mem_append_left b hs)
  frame s hs := h.frame s (List.mem_append_left b hs)
  count := by
    have hcount := h.count
    rw [List.length_append] at hcount
    omega
  bytes := by
    have hbytes := h.bytes
    rw [List.map_append, List.sum_append] at hbytes
    omega

/-- A session that has left scanning stays as it is. -/
theorem scan_closed (hphase : d.progress.phase ≠ .scanning) (sightings : List Sighting) :
    scan env qr d sightings = d := by
  induction sightings with
  | nil => rfl
  | cons s sightings ih =>
      have hreceive : receive env qr d s.frame s.now s.later = (.error closed, d) := if_pos hphase
      rw [scan, List.foldl_cons, hreceive]
      exact ih

theorem Attempted.not_scanning (h : Attempted env qr purpose header parts d) :
    d.progress.phase ≠ .scanning := by
  unfold Attempted at h
  split at h
  · rw [h.2]
    exact nofun
  · rw [h.2]
    exact nofun

theorem Missing.mono {seen' : Finset Nat} (hsub : seen ⊆ seen') (h : Missing parts seen') :
    Missing parts seen := by
  obtain ⟨j, hj, hnot⟩ := h
  exact ⟨j, hj, fun hin => hnot (hsub hin)⟩

/-- The index of a frame of a set. -/
def partIndex (qr : QrCrates Decoder Encoder) (purpose : QrPurpose) (frame : String) : Option Nat :=
  match bbqrPart qr purpose frame with
  | .ok (_, i, _) => some i
  | .error _ => none

/-- The distinct indices of some sightings. -/
def seenIndices (qr : QrCrates Decoder Encoder) (purpose : QrPurpose) (sightings : List Sighting) :
    Finset Nat :=
  (sightings.filterMap fun s => partIndex qr purpose s.frame).toFinset

theorem IsPart.index {frame : String} (h : IsPart qr purpose header parts i frame) :
    partIndex qr purpose frame = some i := by
  obtain ⟨v, -, hpart⟩ := h.part
  rw [partIndex, hpart]

theorem seenIndices_cons {sightings : List Sighting}
    (h : IsPart qr purpose header parts i s.frame) :
    seenIndices qr purpose (s :: sightings) = insert i (seenIndices qr purpose sightings) := by
  simp [seenIndices, h.index]

variable (env) in
/-- A session that reads frames of a set holds the parts it has seen, and has
    read the set once none is missing. -/
theorem Gathering.scan (hcount : parts.length = header.numParts)
    (hsize : (parts.map List.length).sum ≤ maxQrPayloadBytes) {rest : List Sighting}
    (h : Gathering purpose start header parts done seen d) (hmiss : Missing parts seen)
    (hparts : ∀ s ∈ rest, ∃ i, IsPart qr purpose header parts i s.frame)
    (hbudget : InBudget start (done ++ rest)) :
    (Missing parts (seen ∪ seenIndices qr purpose rest) →
      Gathering purpose start header parts (done ++ rest) (seen ∪ seenIndices qr purpose rest)
        (Qr.scan env qr d rest)) ∧
    (¬ Missing parts (seen ∪ seenIndices qr purpose rest) →
      Attempted env qr purpose header parts (Qr.scan env qr d rest)) := by
  induction rest generalizing done seen d with
  | nil =>
      have hnone : seenIndices qr purpose [] = ∅ := rfl
      rw [hnone, Finset.union_empty, List.append_nil]
      exact ⟨fun _ => h, fun hall => absurd hmiss hall⟩
  | cons s rest ih =>
      obtain ⟨⟨i, hpart⟩, hrest⟩ := List.forall_mem_cons.mp hparts
      have hsplit : done ++ s :: rest = (done ++ [s]) ++ rest := by simp
      rw [hsplit] at hbudget ⊢
      have hnext : NextPart qr purpose start header parts done i s := ⟨hpart, hbudget.of_append⟩
      have hseen : seen ∪ seenIndices qr purpose (s :: rest) =
          insert i seen ∪ seenIndices qr purpose rest := by
        rw [seenIndices_cons hpart, Finset.union_insert, Finset.insert_union]
      rw [hseen]
      show (_ → Gathering purpose start header parts _ _
          (Qr.scan env qr (receive env qr d s.frame s.now s.later).2 rest)) ∧
        (_ → Attempted env qr purpose header parts
          (Qr.scan env qr (receive env qr d s.frame s.now s.later).2 rest))
      by_cases hi : i ∈ seen
      · rw [Finset.insert_eq_of_mem hi]
        obtain ⟨_, -, hd⟩ := h.repeated env hnext hi
        exact ih hd hmiss hrest hbudget
      · by_cases hmore : Missing parts (insert i seen)
        · obtain ⟨_, -, hd⟩ := h.more env hnext hi hcount hsize hmore
          exact ih hd hmore hrest hbudget
        · have hdone := h.last env hnext hi hcount hsize hmore
          rw [scan_closed hdone.not_scanning]
          exact ⟨fun hlate => absurd (hlate.mono Finset.subset_union_left) hmore, fun _ => hdone⟩

/-! ## Frames of other sets -/

theorem bbqrPart_header {frame : String} {v : Bytes}
    (h : bbqrPart qr purpose frame = .ok (header, i, v)) : qr.parseHeader frame = some header := by
  simp only [bbqrPart, bind_eq_ok, require_eq_ok, exists_unit, okOr_eq_ok, Except.ok.injEq,
    Prod.mk.injEq] at h
  obtain ⟨-, header, hheader, -, -, -, index, -, -, -, decoded, -, rfl, rfl, rfl⟩ := h
  exact hheader

/-- A session refuses a BBQr frame that its stream does not take. -/
theorem receive_refused {frame : String} {now later : Nat} (hphase : d.progress.phase = .scanning)
    (hbbqr : isBbqr frame = true) (h : ∀ e : QrDecoder Decoder, e.stream = d.stream →
      e.purpose = d.purpose → ∃ error, (receiveBbqr env qr e frame).1 = .error error) :
    (∃ error, (receive env qr d frame now later).1 = .error error) ∧
      (receive env qr d frame now later).2.progress.phase = .failed ∧
      (receive env qr d frame now later).2.stream = .empty := by
  have hne : frame ≠ "" := by
    rintro rfl
    exact absurd hbbqr (by decide)
  have hinner : ∃ error d', receiveInner env qr d frame now = (.error error, d') := by
    unfold receiveInner
    dsimp only
    split
    · exact ⟨_, _, rfl⟩
    split
    · exact ⟨_, _, rfl⟩
    rw [if_neg (isUr_of_isBbqr hbbqr ▸ Bool.false_ne_true)]
    obtain ⟨error, herror⟩ := h
      { d with frames := d.frames + 1, bytes := d.bytes + frame.utf8ByteSize } rfl rfl
    exact ⟨error, _, Prod.ext herror rfl⟩
  obtain ⟨error, d', hinner⟩ := hinner
  rw [receive_of_error hphase hinner]
  exact ⟨⟨error, rfl⟩, rfl, rfl⟩

/-- A stream takes no frame with another header. -/
theorem receiveBbqr_other {frame : String} {stream : BbqrStream} (hstream : d.stream = .bbqr stream)
    (hother : qr.parseHeader frame ≠ some stream.header) :
    ∃ error, (receiveBbqr env qr d frame).1 = .error error := by
  unfold receiveBbqr
  split
  · exact ⟨_, rfl⟩
  · rename_i found index decoded hfound
    simp only [bind_eq_ok, Prod.exists, Except.ok.injEq, Prod.mk.injEq] at hfound
    obtain ⟨header, index, decoded, hpart, found, hold, rfl, rfl, rfl⟩ := hfound
    have hheader := (bbqrStream_eq_ok hold).1
    rw [hstream, bbqrStream] at hold
    split_ifs at hold with hsame
    exact absurd ((bbqrPart_header hpart).trans (congrArg some hsame.symm)) hother

/-- A stream takes no other contents for an index it has. -/
theorem receiveBbqr_conflict {frame : String} {stream : BbqrStream} {v v' : Bytes}
    (hpart : bbqrPart qr d.purpose frame = .ok (header, i, v))
    (hstream : bbqrStream d.stream header = .ok stream) (hrow : stream.parts[i]? = some v')
    (hne : v' ≠ v) : ∃ error, (receiveBbqr env qr d frame).1 = .error error := by
  rw [receiveBbqr, hpart, ok_bind]
  dsimp only
  rw [hstream, ok_bind]
  dsimp only
  rw [hrow]
  dsimp only
  rw [if_pos hne]
  exact ⟨_, rfl⟩

/-- Once a part has been seen, the stream has the header of the set. -/
theorem Gathering.opened (h : Gathering purpose start header parts done seen d)
    (hseen : seen.Nonempty) : ∃ stream, d.stream = .bbqr stream ∧ stream.header = header := by
  obtain ⟨stream, hstream, hfilled, -⟩ := h.stream
  obtain ⟨hheader, hcases⟩ := bbqrStream_eq_ok hstream
  rcases hcases with hsame | ⟨-, hempty⟩
  · exact ⟨stream, hsame, hheader⟩
  · obtain ⟨j, hj⟩ := hseen
    obtain ⟨v, hv⟩ := hfilled.mem_iff.mp hj
    rw [hempty, Std.ExtTreeMap.getElem?_empty] at hv
    cases hv

/-- The indices that are seen are those of the set. -/
theorem seenIndices_lt {sightings : List Sighting}
    (hparts : ∀ s ∈ sightings, ∃ i, IsPart qr purpose header parts i s.frame) :
    ∀ i ∈ seenIndices qr purpose sightings, i < parts.length := by
  intro i hi
  obtain ⟨s, hs, hindex⟩ := List.mem_filterMap.mp (List.mem_toFinset.mp hi)
  obtain ⟨j, hpart⟩ := hparts s hs
  obtain ⟨v, hv, -⟩ := hpart.part
  rw [hpart.index, Option.some.injEq] at hindex
  exact hindex ▸ (List.getElem?_eq_some_iff.mp hv).1

theorem payload_of_scanning (hphase : d.progress.phase = .scanning) (bytes : Bytes) :
    d.payload ≠ .ok bytes := by
  intro h
  simp only [QrDecoder.payload, bind_eq_ok, require_eq_ok, exists_unit] at h
  rw [hphase] at h
  exact absurd h.1 (by decide)

end Reading

/-- BBQr reassembly: while an index of a set is missing the session scans, and
    it reads the parts in order when none is, whatever the order of the frames
    and their repetitions; it reports the distinct indices.  After its first
    frame, a frame with another header, or with other contents for an index it
    has, fails it at once. -/
theorem reassembly {purpose : QrPurpose} {start : Nat} {header : Header} {parts : List Bytes}
    {sightings : List Sighting} (hcount : parts.length = header.numParts)
    (hpos : 0 < header.numParts) (hsize : (parts.map List.length).sum ≤ maxQrPayloadBytes)
    (hparts : ∀ s ∈ sightings, ∃ i, IsPart qr purpose header parts i s.frame)
    (hbudget : InBudget start sightings) :
    let d := scan env qr (.new purpose start) sightings
    let seen := seenIndices qr purpose sightings
    d.progress.resolvedFragments = seen.card ∧ seen.card ≤ header.numParts ∧
    (Missing parts seen → d.progress.phase = .scanning ∧ ∀ bytes, d.payload ≠ .ok bytes) ∧
    (¬ Missing parts seen → Attempted env qr purpose header parts d) ∧
    (Missing parts seen → ∀ frame now later, isBbqr frame = true →
      (sightings ≠ [] ∧ (∃ other, qr.parseHeader frame = some other ∧ other ≠ header) ∨
        ∃ i v, bbqrPart qr purpose frame = .ok (header, i, v) ∧ i ∈ seen ∧ parts[i]? ≠ some v) →
      (∃ error, (receive env qr d frame now later).1 = .error error) ∧
        (receive env qr d frame now later).2.progress.phase = .failed ∧
        (receive env qr d frame now later).2.stream = .empty) := by
  intro d seen
  have hlt := seenIndices_lt hparts
  have hsub : seen ⊆ Finset.range parts.length := fun i hi => Finset.mem_range.mpr (hlt i hi)
  have hcard : seen.card ≤ header.numParts := by
    rw [← hcount, ← Finset.card_range parts.length]
    exact Finset.card_le_card hsub
  have hfirst : Missing parts ∅ := ⟨0, hcount ▸ hpos, Finset.notMem_empty 0⟩
  have hnew : Gathering purpose start header parts [] ∅ (.new purpose start : QrDecoder Decoder) :=
    gathering_new
  have hrun := hnew.scan env hcount hsize hfirst hparts hbudget
  rw [Finset.empty_union, List.nil_append] at hrun
  obtain ⟨hgather, hdone⟩ := hrun
  refine ⟨?_, hcard, fun hmiss => ?_, hdone, ?_⟩
  · by_cases hmiss : Missing parts seen
    · exact (hgather hmiss).resolved
    · have hall : seen = Finset.range parts.length := by
        refine Finset.Subset.antisymm hsub fun i hi => ?_
        by_contra hnot
        exact hmiss ⟨i, Finset.mem_range.mp hi, hnot⟩
      have hattempted := hdone hmiss
      unfold Attempted at hattempted
      rw [hall, Finset.card_range, hcount]
      split at hattempted
      · exact congrArg QrProgress.resolvedFragments hattempted.2
      · exact congrArg QrProgress.resolvedFragments hattempted.2
  · exact ⟨(hgather hmiss).phase, payload_of_scanning (hgather hmiss).phase⟩
  · intro hmiss frame now later hbbqr hforeign
    have hd := hgather hmiss
    refine receive_refused hd.phase hbbqr fun e hstream hpurpose => ?_
    rcases hforeign with ⟨hne, other, hother, hdiffers⟩ | ⟨i, v, hpart, hi, hv⟩
    · have hseen : seen.Nonempty := by
        obtain ⟨s, rest, hsightings⟩ := List.exists_cons_of_ne_nil hne
        obtain ⟨i, hpart⟩ := hparts s (hsightings ▸ List.mem_cons_self)
        refine ⟨i, ?_⟩
        show i ∈ seenIndices qr purpose sightings
        rw [hsightings, seenIndices_cons hpart]
        exact Finset.mem_insert_self ..
      obtain ⟨stream, hopened, hheader⟩ := hd.opened hseen
      refine receiveBbqr_other (hstream.trans hopened) ?_
      rw [hother, hheader]
      exact fun heq => hdiffers (Option.some.inj heq)
    · obtain ⟨stream, hold, hfilled, -⟩ := hd.stream
      obtain ⟨v', hv'⟩ := hfilled.mem_iff.mp hi
      have hrow := hfilled.get i
      rw [if_pos hi, hv'] at hrow
      refine receiveBbqr_conflict (hpurpose.trans hd.purpose ▸ hpart) (hstream ▸ hold) hv' ?_
      rintro rfl
      exact hv hrow.symm

end Qr
end Tundra
