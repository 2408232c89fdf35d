/-
  Tundra.Qr.Session

  What holds of a scanner session after any frames, clock readings and
  cancellations.  A step lemma for each kind of frame says what an accepted
  frame does (`Accepts`); a refused one fails the session, and the run lemma
  carries the invariant over all of them.
-/

import Tundra.Qr.Transport

namespace Tundra
namespace Qr

open Checked Relational Signing

variable {State Wallet Scan Decoder Encoder : Type} (env : Env State Wallet Scan)
  (qr : QrCrates Decoder Encoder)

/-! ## Runs -/

inductive QrEvent where
  | receive (frame : String) (now later : Nat)
  | progress (now : Nat)
  | cancel (now : Nat)

def step (d : QrDecoder Decoder) : QrEvent → QrDecoder Decoder
  | .receive frame now later => (receive env qr d frame now later).2
  | .progress now => d.expire now
  | .cancel now => d.cancel now

def run (d : QrDecoder Decoder) (events : List QrEvent) : QrDecoder Decoder :=
  events.foldl (step env qr) d

/-- The frame an event has the session accept. -/
def acceptedBy (d : QrDecoder Decoder) : QrEvent → List String
  | .receive frame now later =>
      match (receive env qr d frame now later).1 with
      | .ok _ => [frame]
      | .error _ => []
  | _ => []

/-- Is a frame within the budgets of a session that is scanning? -/
def WithinBudget (d : QrDecoder Decoder) (frame : String) (now : Nat) : Prop :=
  d.progress.phase = .scanning ∧ now - d.started ≤ sessionLifetime ∧ d.frames < maxFrames ∧
    frame.utf8ByteSize ≤ maxFrameCharacters ∧ d.bytes + frame.utf8ByteSize ≤ maxScannedBytes

instance (d : QrDecoder Decoder) (frame : String) (now : Nat) :
    Decidable (WithinBudget d frame now) := by
  unfold WithinBudget
  infer_instance

/-- The frame an event has the session look into. -/
def processedBy (d : QrDecoder Decoder) : QrEvent → List String
  | .receive frame now _ => if WithinBudget d frame now then [frame] else []
  | _ => []

/-- The frames a run accepts, and those it looks into. -/
def accepted : QrDecoder Decoder → List QrEvent → List String
  | _, [] => []
  | d, e :: events => acceptedBy env qr d e ++ accepted (step env qr d e) events

def processed : QrDecoder Decoder → List QrEvent → List String
  | _, [] => []
  | d, e :: events => processedBy d e ++ processed (step env qr d e) events

/-! ## Kinds of frames -/

inductive FrameKind where
  | ur
  | bbqr
  | plain
  deriving DecidableEq, Repr

def frameKind (frame : String) : FrameKind :=
  if isUr frame then .ur else if isBbqr frame then .bbqr else .plain

/-- The kind of the frames a stream is made of. -/
def streamKind : QrStream Decoder → Option FrameKind
  | .ur _ => some .ur
  | .bbqr _ => some .bbqr
  | _ => none

/-! ## Streams -/

/-- What the crate says about the fragments of a decoder. -/
structure CountsFragments : Prop where
  resolved_le : ∀ decoder n, qr.resolvedFragmentCount decoder = some n →
    n ≤ qr.fragmentCount decoder
  count_lt : ∀ decoder, qr.fragmentCount decoder < 2 ^ 32

/-- The stream of a scanning session, and the progress it reports. -/
def StreamOk (d : QrDecoder Decoder) : Prop :=
  match d.stream with
  | .empty => d.progress.resolvedFragments = 0 ∧ d.progress.totalFragments = none
  | .ur stream =>
      d.progress.totalFragments = some (qr.fragmentCount stream.decoder % 2 ^ 32) ∧
      d.progress.resolvedFragments = (qr.resolvedFragmentCount stream.decoder).getD 0 % 2 ^ 32
  | .bbqr stream =>
      d.progress.totalFragments = some stream.header.numParts ∧
      d.progress.resolvedFragments = stream.parts.size ∧
      ∀ i v, stream.parts[i]? = some v → i < stream.header.numParts
  | .payload _ => False

/-- A payload that passed the validator of the session's purpose. -/
def Validated (purpose : QrPurpose) (bytes : Bytes) : Prop :=
  ∃ raw binaryPsbt, raw.length ≤ maxQrPayloadBytes ∧
    validate env purpose raw binaryPsbt = .ok bytes

structure Completed (d : QrDecoder Decoder) : Prop where
  phase : d.progress.phase = .complete
  resolved : d.progress.totalFragments = some d.progress.resolvedFragments
  payload : ∃ bytes, d.stream = .payload bytes ∧ Validated env d.purpose bytes

/-- What an accepted frame of a kind does. -/
structure Accepts (kind : FrameKind) (d d' : QrDecoder Decoder) : Prop where
  purpose : d'.purpose = d.purpose
  started : d'.started = d.started
  frames : d'.frames = d.frames
  bytes : d'.bytes = d.bytes
  joins : d.stream = .empty ∨ streamKind d.stream = some kind
  outcome : (d'.progress.phase = d.progress.phase ∧ streamKind d'.stream = some kind ∧
    StreamOk qr d') ∨ Completed env d'

section Steps

variable {env} {qr} {d d' : QrDecoder Decoder} {frame : String}

theorem finish_eq_ok {bytes : Bytes} {binaryPsbt : Bool}
    (h : finish env d bytes binaryPsbt = (.ok (), d')) :
    Completed env d' ∧ d'.purpose = d.purpose ∧ d'.started = d.started ∧ d'.frames = d.frames ∧
      d'.bytes = d.bytes := by
  unfold finish at h
  split_ifs at h with hsize
  · cases (Prod.mk.inj h).1
  · split at h
    · cases (Prod.mk.inj h).1
    · rename_i out hout
      obtain ⟨-, rfl⟩ := Prod.mk.inj h
      exact ⟨⟨rfl, rfl, out, rfl, bytes, binaryPsbt, not_lt.mp hsize, hout⟩, rfl, rfl, rfl, rfl⟩

/-- A payload completes the session it is found in. -/
theorem Accepts.of_finish {kind : FrameKind} {e : QrDecoder Decoder} {bytes : Bytes}
    {binaryPsbt : Bool} (h : finish env e bytes binaryPsbt = (.ok (), d'))
    (hpurpose : e.purpose = d.purpose) (hstarted : e.started = d.started)
    (hframes : e.frames = d.frames) (hbytes : e.bytes = d.bytes)
    (hjoins : d.stream = .empty ∨ streamKind d.stream = some kind) : Accepts env qr kind d d' := by
  obtain ⟨hdone, hpurpose', hstarted', hframes', hbytes'⟩ := finish_eq_ok h
  exact ⟨hpurpose'.trans hpurpose, hstarted'.trans hstarted, hframes'.trans hframes,
    hbytes'.trans hbytes, hjoins, .inr hdone⟩

theorem urStream_joins {stream : QrStream Decoder} {identity : UrIdentity}
    {s : UrStream Decoder} (h : urStream qr stream identity = .ok s) :
    stream = .empty ∨ streamKind stream = some .ur := by
  cases stream with
  | empty => exact .inl rfl
  | ur s' => exact .inr rfl
  | bbqr s' => cases h
  | payload bytes => cases h

theorem receiveUr_ok (h : receiveUr env qr d frame = (.ok (), d')) :
    Accepts env qr .ur d d' := by
  unfold receiveUr at h
  dsimp only at h
  split at h
  · cases (Prod.mk.inj h).1
  split at h
  · cases (Prod.mk.inj h).1
  · -- a single part is a whole message
    rename_i bytes hdecode
    split at h
    · rename_i hempty
      split at h
      · cases (Prod.mk.inj h).1
      · exact .of_finish h rfl rfl rfl rfl (.inl hempty)
    · cases (Prod.mk.inj h).1
  · rename_i bytes hdecode
    split at h
    · cases (Prod.mk.inj h).1
    · rename_i stream hstream
      simp only [bind_eq_ok, Prod.exists, require_eq_ok, exists_unit, okOr_eq_ok,
        Except.ok.injEq] at hstream
      obtain ⟨identity, sequence, hidentity, old, hold, hseen, decoder, hdecoder, rfl⟩ := hstream
      have hjoins := urStream_joins hold
      split_ifs at h with hcomplete
      · split at h
        · cases (Prod.mk.inj h).1
        · exact .of_finish h rfl rfl rfl rfl hjoins
      · obtain ⟨-, rfl⟩ := Prod.mk.inj h
        exact ⟨rfl, rfl, rfl, rfl, hjoins, .inl ⟨rfl, rfl, rfl, rfl⟩⟩

theorem bbqrPart_index {purpose : QrPurpose} {header : Header} {index : Nat} {decoded : Bytes}
    (h : bbqrPart qr purpose frame = .ok (header, index, decoded)) : index < header.numParts := by
  simp only [bbqrPart, bind_eq_ok, require_eq_ok, exists_unit, Except.ok.injEq, Prod.mk.injEq] at h
  obtain ⟨-, header, -, -, -, -, index, -, hindex, -, decoded, -, rfl, rfl, rfl⟩ := h
  exact hindex

theorem bbqrStream_eq_ok {stream : QrStream Decoder} {header : Header} {s : BbqrStream}
    (h : bbqrStream stream header = .ok s) :
    s.header = header ∧ (stream = .bbqr s ∨ stream = .empty ∧ s.parts = ∅) := by
  cases stream with
  | empty =>
      cases h
      exact ⟨rfl, .inr ⟨rfl, rfl⟩⟩
  | ur s' => cases h
  | bbqr s' =>
      rw [bbqrStream] at h
      split_ifs at h with hheader
      cases h
      exact ⟨hheader, .inl rfl⟩
  | payload bytes => cases h

/-- The indices of a stream, with one more from the same set of frames. -/
theorem insert_index {stream : BbqrStream} {header : Header} {index : Nat} {decoded : Bytes}
    (hok : StreamOk qr d) (hpart : bbqrPart qr d.purpose frame = .ok (header, index, decoded))
    (hold : bbqrStream d.stream header = .ok stream) :
    ∀ i v, (stream.parts.insert index decoded)[i]? = some v → i < stream.header.numParts := by
  have hindex := bbqrPart_index hpart
  obtain ⟨rfl, hcases⟩ := bbqrStream_eq_ok hold
  unfold StreamOk at hok
  intro i v hi
  rw [Table.get_insert] at hi
  split_ifs at hi with heq
  · exact heq ▸ hindex
  · rcases hcases with hsame | ⟨-, hempty⟩
    · rw [hsame] at hok
      exact hok.2.2 i v hi
    · rw [hempty, Std.ExtTreeMap.getElem?_empty] at hi
      cases hi

theorem receiveBbqr_ok (hok : StreamOk qr d) (h : receiveBbqr env qr d frame = (.ok (), d')) :
    Accepts env qr .bbqr d d' := by
  unfold receiveBbqr at h
  split at h
  · cases (Prod.mk.inj h).1
  rename_i stream index decoded hstream
  simp only [bind_eq_ok, Prod.exists, Except.ok.injEq, Prod.mk.injEq] at hstream
  obtain ⟨header, index, decoded, hpart, stream, hold, rfl, rfl, rfl⟩ := hstream
  have hall := insert_index hok hpart hold
  obtain ⟨rfl, hcases⟩ := bbqrStream_eq_ok hold
  have hjoins : d.stream = .empty ∨ streamKind d.stream = some .bbqr :=
    hcases.elim (fun h => .inr (h ▸ rfl)) fun h => .inl h.1
  split at h
  · -- a repeated part changes nothing
    rename_i existing hexisting
    obtain ⟨-, rfl⟩ := Prod.mk.inj h
    rcases hcases with hsame | ⟨-, hempty⟩
    · exact ⟨rfl, rfl, rfl, rfl, hjoins, .inl ⟨rfl, by rw [hsame]; rfl, hok⟩⟩
    · rw [hempty, Std.ExtTreeMap.getElem?_empty] at hexisting
      cases hexisting
  · dsimp only at h
    split at h
    · cases (Prod.mk.inj h).1
    split at h
    · split at h
      · cases (Prod.mk.inj h).1
      · exact .of_finish h rfl rfl rfl rfl hjoins
    · obtain ⟨-, rfl⟩ := Prod.mk.inj h
      exact ⟨rfl, rfl, rfl, rfl, hjoins, .inl ⟨rfl, rfl, rfl, rfl, hall⟩⟩

/-- What an accepted frame does, whatever its kind; it was within the budget. -/
theorem receiveInner_ok {now : Nat} (hphase : d.progress.phase = .scanning)
    (hok : StreamOk qr d) (h : receiveInner env qr d frame now = (.ok (), d')) :
    WithinBudget d frame now ∧ Accepts env qr (frameKind frame)
      { d with frames := d.frames + 1, bytes := d.bytes + frame.utf8ByteSize } d' := by
  unfold receiveInner at h
  dsimp only at h
  split at h
  · cases (Prod.mk.inj h).1
  rename_i hlimits
  split at h
  · cases (Prod.mk.inj h).1
  rename_i hbytes
  have hbudget : WithinBudget d frame now := by
    refine ⟨hphase, ?_⟩
    omega
  refine ⟨hbudget, ?_⟩
  split at h
  · cases (Prod.mk.inj h).1
  unfold frameKind
  split at h
  · rename_i hur
    rw [if_pos hur]
    exact receiveUr_ok h
  rename_i hur
  rw [if_neg hur]
  split at h
  · rename_i hbbqr
    rw [if_pos hbbqr]
    exact receiveBbqr_ok hok h
  rename_i hbbqr
  rw [if_neg hbbqr]
  split at h
  · rename_i hempty
    exact .of_finish h rfl rfl rfl rfl (.inl hempty)
  · cases (Prod.mk.inj h).1

/-! ## What every step keeps -/

/-- No more fragments are resolved than there are; none before there are any. -/
def Bounded (d : QrDecoder Decoder) : Prop :=
  d.progress.resolvedFragments ≤ d.progress.totalFragments.getD 0

/-- A step of a session, accepted or not: its purpose and start stay, and its
    counts are in order. -/
structure Keeps (d d' : QrDecoder Decoder) : Prop where
  purpose : d'.purpose = d.purpose
  started : d'.started = d.started
  bounded : Bounded d'

theorem keeps_finish {e : QrDecoder Decoder} {bytes : Bytes} {binaryPsbt : Bool}
    (h : Keeps d e) : Keeps d (finish env e bytes binaryPsbt).2 := by
  unfold finish
  split
  · exact h
  split
  · exact h
  · exact ⟨h.purpose, h.started, le_rfl⟩

theorem keeps_receiveUr (hcounts : CountsFragments qr) {e : QrDecoder Decoder} (h : Keeps d e) :
    Keeps d (receiveUr env qr e frame).2 := by
  unfold receiveUr
  dsimp only
  split
  · exact h
  split
  · exact h
  · split
    · split
      · exact h
      · exact keeps_finish h
    · exact h
  · split
    · exact h
    · rename_i stream hstream
      have hbounded : (qr.resolvedFragmentCount stream.decoder).getD 0 % 2 ^ 32 ≤
          qr.fragmentCount stream.decoder % 2 ^ 32 := by
        rw [Nat.mod_eq_of_lt (hcounts.count_lt stream.decoder)]
        refine (Nat.mod_le _ _).trans ?_
        cases hresolved : qr.resolvedFragmentCount stream.decoder with
        | none => exact Nat.zero_le _
        | some n => exact hcounts.resolved_le _ _ hresolved
      have hkeeps : Keeps d { e with
          stream := .ur stream
          progress := { e.progress with
            totalFragments := some (qr.fragmentCount stream.decoder % 2 ^ 32)
            resolvedFragments := (qr.resolvedFragmentCount stream.decoder).getD 0 % 2 ^ 32 } } :=
        ⟨h.purpose, h.started, hbounded⟩
      split
      · split
        · exact hkeeps
        · exact keeps_finish hkeeps
      · exact hkeeps

/-- Parts with indices below a number are no more than the number. -/
theorem size_le {parts : Table Nat Bytes} {n : Nat} (h : ∀ i v, parts[i]? = some v → i < n) :
    parts.size ≤ n := by
  have hle : parts.size ≤ (List.range n).length :=
    Table.size_le_length fun i v hi => List.mem_range.mpr (h i v hi)
  rwa [List.length_range] at hle

theorem keeps_receiveBbqr {e : QrDecoder Decoder} (hok : StreamOk qr e) (h : Keeps d e) :
    Keeps d (receiveBbqr env qr e frame).2 := by
  unfold receiveBbqr
  split
  · exact h
  rename_i stream index decoded hstream
  simp only [bind_eq_ok, Prod.exists, Except.ok.injEq, Prod.mk.injEq] at hstream
  obtain ⟨header, index, decoded, hpart, stream, hold, rfl, rfl, rfl⟩ := hstream
  have hbounded := size_le (insert_index hok hpart hold)
  split
  · exact h
  dsimp only
  split
  · exact h
  have hkeeps : Keeps d { e with
      stream := .bbqr { stream with
        parts := stream.parts.insert index decoded
        bytes := stream.bytes + decoded.length }
      progress := { e.progress with
        resolvedFragments := (stream.parts.insert index decoded).size
        totalFragments := some stream.header.numParts } } := ⟨h.purpose, h.started, hbounded⟩
  split
  · split
    · exact hkeeps
    · exact keeps_finish hkeeps
  · exact hkeeps

theorem keeps_receiveInner {now : Nat} (hcounts : CountsFragments qr) (hok : StreamOk qr d)
    (h : Bounded d) : Keeps d (receiveInner env qr d frame now).2 := by
  have hnext : Keeps d { d with
      frames := d.frames + 1
      bytes := d.bytes + frame.utf8ByteSize } := ⟨rfl, rfl, h⟩
  unfold receiveInner
  dsimp only
  split
  · exact ⟨rfl, rfl, h⟩
  split
  · exact hnext
  split
  · exact hnext
  split
  · exact keeps_receiveUr hcounts hnext
  split
  · exact keeps_receiveBbqr hok hnext
  split
  · exact keeps_finish hnext
  · exact hnext

end Steps

/-! ## The invariant -/

/-- What holds of a session that has accepted some frames and looked into others. -/
structure SessionOk (purpose : QrPurpose) (start : Nat) (d : QrDecoder Decoder)
    (accepted processed : List String) : Prop where
  purpose : d.purpose = purpose
  started : d.started = start
  scanning : d.progress.phase = .scanning → StreamOk qr d ∧
    (d.stream = .empty → accepted = []) ∧ d.frames = processed.length ∧
    d.bytes = (processed.map String.utf8ByteSize).sum
  complete : d.progress.phase = .complete → Completed env d
  dropped : d.progress.phase = .cancelled ∨ d.progress.phase = .failed → d.stream = .empty
  kind : ∃ kind, (∀ f ∈ accepted, frameKind f = kind) ∧
    (streamKind d.stream = none ∨ streamKind d.stream = some kind)
  resolved : Bounded d
  frames : processed.length ≤ maxFrames
  bytes : (processed.map String.utf8ByteSize).sum ≤ maxScannedBytes

section Invariant

variable {env} {qr} {purpose : QrPurpose} {start : Nat} {d : QrDecoder Decoder}
  {acc proc : List String}

theorem sessionOk_new (purpose : QrPurpose) (start : Nat) :
    SessionOk env qr purpose start (.new purpose start : QrDecoder Decoder) [] [] where
  purpose := rfl
  started := rfl
  scanning _ := ⟨⟨rfl, rfl⟩, fun _ => rfl, rfl, rfl⟩
  complete h := by cases h
  dropped h := by rcases h with h | h <;> cases h
  kind := ⟨.plain, by simp, .inl rfl⟩
  resolved := le_rfl
  frames := Nat.zero_le _
  bytes := Nat.zero_le _

/-- A session that leaves scanning without a payload drops its stream. -/
theorem SessionOk.drop (h : SessionOk env qr purpose start d acc proc) {phase : QrPhase}
    (hphase : phase = .cancelled ∨ phase = .failed) :
    SessionOk env qr purpose start
      { d with
        stream := .empty
        progress := { d.progress with phase } } acc proc where
  purpose := h.purpose
  started := h.started
  scanning hscan := by rcases hphase with rfl | rfl <;> cases hscan
  complete hdone := by rcases hphase with rfl | rfl <;> cases hdone
  dropped _ := rfl
  kind := by
    obtain ⟨kind, hall, -⟩ := h.kind
    exact ⟨kind, hall, .inl rfl⟩
  resolved := h.resolved
  frames := h.frames
  bytes := h.bytes

theorem SessionOk.expire (h : SessionOk env qr purpose start d acc proc) (now : Nat) :
    SessionOk env qr purpose start (d.expire now) acc proc := by
  unfold QrDecoder.expire
  split
  · exact h.drop (.inr rfl)
  · exact h

/-- An accepted frame keeps the invariant. -/
theorem SessionOk.accept (h : SessionOk env qr purpose start d acc proc) {d' : QrDecoder Decoder}
    {frame : String} {now : Nat} (hbudget : WithinBudget d frame now)
    (haccepts : Accepts env qr (frameKind frame)
      { d with frames := d.frames + 1, bytes := d.bytes + frame.utf8ByteSize } d')
    (hbounded : Bounded d') : SessionOk env qr purpose start d' (acc ++ [frame]) (proc ++ [frame]) := by
  obtain ⟨hphase, -, hframes, -, hbytes⟩ := hbudget
  obtain ⟨hok, hempty, hcount, hsum⟩ := h.scanning hphase
  have hproc : (proc ++ [frame]).length = proc.length + 1 := by simp
  have hsize : ((proc ++ [frame]).map String.utf8ByteSize).sum =
      (proc.map String.utf8ByteSize).sum + frame.utf8ByteSize := by simp
  have hkind : ∀ f ∈ acc ++ [frame], frameKind f = frameKind frame := by
    intro f hf
    rcases List.mem_append.mp hf with hold | hnew
    · obtain ⟨kind, hall, hstream⟩ := h.kind
      rcases haccepts.joins with hnone | hjoin
      · rw [hempty hnone] at hold
        cases hold
      · rcases hstream with hnone | hsome
        · exact absurd (hnone.symm.trans hjoin) nofun
        · have heq := Option.some.inj (hsome.symm.trans hjoin)
          exact (hall f hold).trans heq
    · rw [List.mem_singleton.mp hnew]
  have hnext : streamKind d'.stream = none ∨ streamKind d'.stream = some (frameKind frame) := by
    rcases haccepts.outcome with ⟨-, hstream, -⟩ | hdone
    · exact .inr hstream
    · obtain ⟨bytes, hpayload, -⟩ := hdone.payload
      exact .inl (by rw [hpayload]; rfl)
  refine ⟨haccepts.purpose.trans h.purpose, haccepts.started.trans h.started, fun hscan => ?_,
    fun hdone => ?_, fun hdropped => ?_, ⟨_, hkind, hnext⟩, hbounded, by omega, by omega⟩
  · rcases haccepts.outcome with ⟨-, hstream, hstreamOk⟩ | hdone
    · refine ⟨hstreamOk, fun hnone => ?_, ?_, ?_⟩
      · rw [hnone] at hstream
        cases hstream
      · rw [haccepts.frames, hproc, ← hcount]
      · rw [haccepts.bytes, hsize, ← hsum]
    · rw [hdone.phase] at hscan
      cases hscan
  · rcases haccepts.outcome with ⟨hsame, -, -⟩ | hdone'
    · have hscan : d'.progress.phase = .scanning := hsame.trans hphase
      rw [hscan] at hdone
      cases hdone
    · exact hdone'
  · rcases haccepts.outcome with ⟨hsame, -, -⟩ | hdone'
    · have hscan : d'.progress.phase = .scanning := hsame.trans hphase
      rw [hscan] at hdropped
      rcases hdropped with h | h <;> cases h
    · rw [hdone'.phase] at hdropped
      rcases hdropped with h | h <;> cases h

/-- A refused frame fails the session. -/
theorem SessionOk.refuse (h : SessionOk env qr purpose start d acc proc) (hcounts : CountsFragments qr)
    {d' : QrDecoder Decoder} {frame : String} {now : Nat} {e : Error}
    (hphase : d.progress.phase = .scanning)
    (hinner : receiveInner env qr d frame now = (.error e, d')) :
    SessionOk env qr purpose start
      { d' with
        stream := .empty
        progress := { d'.progress with phase := .failed } } acc
      (proc ++ if WithinBudget d frame now then [frame] else []) := by
  obtain ⟨hok, -, hcount, hsum⟩ := h.scanning hphase
  have hkeeps : Keeps d d' := by
    have hkeeps : Keeps d (receiveInner env qr d frame now).2 :=
      keeps_receiveInner hcounts hok h.resolved
    rwa [hinner] at hkeeps
  have hframes := h.frames
  have hbytes := h.bytes
  have hproc : (proc ++ if WithinBudget d frame now then [frame] else []).length ≤ maxFrames ∧
      ((proc ++ if WithinBudget d frame now then [frame] else []).map
        String.utf8ByteSize).sum ≤ maxScannedBytes := by
    split_ifs with hbudget
    · obtain ⟨-, -, hlt, -, hle⟩ := hbudget
      simp only [List.length_append, List.length_singleton, List.map_append, List.sum_append,
        List.map_singleton, List.sum_singleton]
      omega
    · rw [List.append_nil]
      exact ⟨hframes, hbytes⟩
  obtain ⟨kind, hall, -⟩ := h.kind
  exact ⟨hkeeps.purpose.trans h.purpose, hkeeps.started.trans h.started, nofun, nofun,
    fun _ => rfl, ⟨kind, hall, .inl rfl⟩, hkeeps.bounded, hproc.1, hproc.2⟩

/-- Every event keeps the invariant. -/
theorem SessionOk.step (h : SessionOk env qr purpose start d acc proc) (hcounts : CountsFragments qr)
    (e : QrEvent) :
    SessionOk env qr purpose start (step env qr d e) (acc ++ acceptedBy env qr d e)
      (proc ++ processedBy d e) := by
  cases e with
  | progress now =>
      show SessionOk env qr purpose start (d.expire now) (acc ++ []) (proc ++ [])
      rw [List.append_nil, List.append_nil]
      exact h.expire now
  | cancel now =>
      show SessionOk env qr purpose start (d.cancel now) (acc ++ []) (proc ++ [])
      rw [List.append_nil, List.append_nil]
      exact (h.drop (.inl rfl)).expire now
  | receive frame now later =>
      rw [Qr.step, acceptedBy, processedBy]
      by_cases hphase : d.progress.phase = .scanning
      · cases hinner : receiveInner env qr d frame now with
        | mk r d' =>
            cases r with
            | error e =>
                have hreceive : receive env qr d frame now later =
                    (.error e,
                      { d' with
                        stream := .empty
                        progress := { d'.progress with phase := .failed } }) := by
                  rw [receive, if_neg (not_not.mpr hphase), hinner]
                rw [hreceive, List.append_nil]
                exact h.refuse hcounts hphase hinner
            | ok u =>
                have hreceive : receive env qr d frame now later =
                    (.ok (d'.expire later).progress, d'.expire later) := by
                  rw [receive, if_neg (not_not.mpr hphase), hinner]
                obtain ⟨hok, -⟩ := h.scanning hphase
                obtain ⟨hbudget, haccepts⟩ := receiveInner_ok hphase hok hinner
                have hkeeps : Keeps d (receiveInner env qr d frame now).2 :=
                  keeps_receiveInner hcounts hok h.resolved
                rw [hinner] at hkeeps
                rw [hreceive, if_pos hbudget]
                exact (h.accept hbudget haccepts hkeeps.bounded).expire later
      · have hreceive : receive env qr d frame now later = (.error closed, d) := if_pos hphase
        rw [hreceive, if_neg fun hbudget => hphase hbudget.1, List.append_nil, List.append_nil]
        exact h

/-- A run keeps the invariant. -/
theorem SessionOk.run (h : SessionOk env qr purpose start d acc proc) (hcounts : CountsFragments qr)
    (events : List QrEvent) :
    SessionOk env qr purpose start (run env qr d events) (acc ++ accepted env qr d events)
      (proc ++ processed env qr d events) := by
  induction events generalizing d acc proc with
  | nil =>
      rw [accepted, processed, List.append_nil, List.append_nil]
      exact h
  | cons e events ih =>
      rw [accepted, processed, ← List.append_assoc, ← List.append_assoc]
      exact ih (h.step hcounts e)

end Invariant

end Qr
end Tundra
