/-
  Tundra.Histories

  What a finished scan knows about the scripts of a keychain.  The visits of a
  keychain are a run of consecutive indices; the scan stops at the first one
  where the gap and the revealed addresses are behind it.  So the twenty
  scripts after the last active one are always asked for, and the twentieth
  script after the last revealed one is not when there is no activity at or
  past that index.
-/

import Tundra.Scan
import Mathlib.Order.Bounds.Basic

namespace Tundra
namespace Scan

open Checked Relational Esplora

variable {State Wallet : Type} {env : ChainEnv State Wallet} {out : Outside}

/-! ## Pages -/

/-- An entry is added to a history that agrees with it. -/
theorem addEntry_eq_ok {acc acc' : List Txid × Table Txid Status} {entry : History}
    (h : addEntry acc entry = .ok acc') :
    (∀ status, acc.2[entry.txid]? = some status → status = entry.status) ∧
    acc' = (entry.txid :: acc.1, acc.2.insert entry.txid entry.status) := by
  obtain ⟨seen, history⟩ := acc
  simp only [addEntry, bind_eq_ok, require_eq_ok, exists_unit] at h
  obtain ⟨_, hsame, _, heq⟩ := h
  cases heq
  refine ⟨fun status hget => ?_, rfl⟩
  simpa [hget] using hsame

theorem addEntry_history {acc acc' : List Txid × Table Txid Status} {entry : History}
    (h : addEntry acc entry = .ok acc') (txid : Txid) (status : Status) :
    acc'.2[txid]? = some status ↔
      acc.2[txid]? = some status ∨ ({ txid, status } : History) = entry := by
  obtain ⟨hsame, rfl⟩ := addEntry_eq_ok h
  rw [Table.get_insert]
  by_cases htx : entry.txid = txid
  · subst htx
    rw [if_pos rfl, Option.some.injEq]
    constructor
    · rintro rfl
      exact .inr rfl
    · rintro (hget | heq)
      · exact (hsame status hget).symm
      · rw [← heq]
  · rw [if_neg htx]
    constructor
    · exact .inl
    · rintro (hget | heq)
      · exact hget
      · exact absurd (congrArg History.txid heq).symm htx

/-- The entries of one page join the history. -/
theorem addEntries_history {page : List History} {acc acc' : List Txid × Table Txid Status}
    (h : page.foldlM addEntry acc = .ok acc') (txid : Txid) (status : Status) :
    acc'.2[txid]? = some status ↔
      acc.2[txid]? = some status ∨ ({ txid, status } : History) ∈ page := by
  induction page generalizing acc with
  | nil =>
      simp only [List.foldlM_nil, pure_eq_ok] at h
      simp [h]
  | cons entry page ih =>
      simp only [List.foldlM_cons, bind_eq_ok] at h
      obtain ⟨next, hnext, hrest⟩ := h
      rw [ih hrest, addEntry_history hnext, List.mem_cons, or_assoc]

/-- What reading pages changes: the client, and the history by their entries. -/
structure PagesRead (env : ChainEnv State Wallet) (found found' : Found)
    (pages : List (List History)) : Prop where
  http : found.http.Extends found'.http
  blocks : found'.blocks = found.blocks
  update : found'.update = found.update
  headers : found'.headers = found.headers
  visits : found'.visits = found.visits
  answered : ∀ page ∈ pages, ∃ path body, found'.http.Answered path body ∧
    env.parseHistory body = some page
  history : ∀ txid status, found'.history[txid]? = some status ↔
    found.history[txid]? = some status ∨ ∃ page ∈ pages, ({ txid, status } : History) ∈ page

theorem PagesRead.trans {found found' found'' : Found} {pages pages' : List (List History)}
    (h : PagesRead env found found' pages) (h' : PagesRead env found' found'' pages') :
    PagesRead env found found'' (pages ++ pages') where
  http := h.http.trans h'.http
  blocks := h'.blocks.trans h.blocks
  update := h'.update.trans h.update
  headers := h'.headers.trans h.headers
  visits := h'.visits.trans h.visits
  answered := by
    intro page hpage
    rcases List.mem_append.mp hpage with hold | hnew
    · obtain ⟨path, body, hanswer, hparse⟩ := h.answered page hold
      exact ⟨path, body, hanswer.mono h'.http, hparse⟩
    · exact h'.answered page hnew
  history := by
    intro txid status
    rw [h'.history, h.history, or_assoc]
    refine or_congr Iff.rfl ?_
    simp only [List.mem_append, or_and_right, exists_or]

theorem scanPages_eq_ok {hash path : String} {fuel : Nat} {seen : List Txid}
    {pages pages' : List (List History)} {found found' : Found}
    (h : scanPages env out hash fuel path seen pages found = .ok (pages', found')) :
    ∃ new, pages' = pages ++ new ∧ PagesRead env found found' new ∧
      ∃ body, found'.http.Answered path body := by
  induction fuel generalizing path seen pages found with
  | zero => cases h
  | succ fuel ih =>
      simp only [scanPages, bind_eq_ok, require_eq_ok, exists_unit] at h
      obtain ⟨⟨page, http⟩, hpage, _, ⟨seen', history⟩, hentries, hrest⟩ := h
      obtain ⟨body, hparse, hanswer, hext⟩ := Http.json_eq_ok hpage
      have hread : PagesRead env found { found with http, history } [page] :=
        { http := hext
          blocks := rfl
          update := rfl
          headers := rfl
          visits := rfl
          answered := by
            intro p hp
            cases List.mem_singleton.mp hp
            exact ⟨path, body, hanswer, hparse⟩
          history := by
            intro txid status
            simpa using addEntries_history hentries txid status }
      split_ifs at hrest with hfull
      · cases hrest
        exact ⟨[page], rfl, hread, body, hanswer⟩
      · simp only [bind_eq_ok, okOr_eq_ok] at hrest
        obtain ⟨last, _, hrest⟩ := hrest
        obtain ⟨new, hnew, hread', _⟩ := ih hrest
        refine ⟨page :: new, by simp [hnew], hread.trans hread', body, ?_⟩
        exact hanswer.mono hread'.http

/-! ## Scripts -/

/-- The path of a script's history. -/
def historyPath (env : ChainEnv State Wallet) (wallet : Wallet) (k : KeychainKind) (index : Nat) :
    String :=
  "/scripthash/" ++ env.scriptHash (env.peekScript wallet k index) ++ "/txs"

/-- What a visit adds to the state of a scan. -/
structure Visited (env : ChainEnv State Wallet) (wallet : Wallet) (found found' : Found)
    (visit : Visit) : Prop where
  http : found.http.Extends found'.http
  blocks : found'.blocks = found.blocks
  headers : found'.headers = found.headers
  anchors : found'.update.anchors = found.update.anchors
  txs : found'.update.txs = found.update.txs
  seenAts : found'.update.seenAts = found.update.seenAts
  evictedAts : found'.update.evictedAts = found.update.evictedAts
  visits : found'.visits = found.visits ++ [visit]
  asked : ∃ body, found'.http.Answered (historyPath env wallet visit.keychain visit.index) body
  answered : ∀ page ∈ visit.pages, ∃ path body, found'.http.Answered path body ∧
    env.parseHistory body = some page
  history : ∀ txid status, found'.history[txid]? = some status ↔
    found.history[txid]? = some status ∨ ∃ page ∈ visit.pages, ({ txid, status } : History) ∈ page

theorem scanScript_eq_ok {wallet : Wallet} {k : KeychainKind} {index : Nat} {found found' : Found}
    {visit : Visit} (h : scanScript env out wallet k index found = .ok (visit, found')) :
    visit.keychain = k ∧ visit.index = index ∧ Visited env wallet found found' visit := by
  simp only [scanScript, bind_eq_ok] at h
  obtain ⟨⟨pages, next⟩, hpages, _, _, heq⟩ := h
  obtain ⟨new, hnew, hread, body, hbody⟩ := scanPages_eq_ok hpages
  simp only [List.nil_append] at hnew
  subst hnew
  cases heq
  refine ⟨rfl, rfl, ?_⟩
  have hupdate : ∀ b : Bool, (if b then setActive next.update k index else next.update).anchors =
      next.update.anchors ∧ (if b then setActive next.update k index else next.update).txs =
      next.update.txs ∧ (if b then setActive next.update k index else next.update).seenAts =
      next.update.seenAts ∧ (if b then setActive next.update k index else next.update).evictedAts =
      next.update.evictedAts := by
    intro b
    cases b <;> exact ⟨rfl, rfl, rfl, rfl⟩
  obtain ⟨hanchors, htxs, hseen, hevicted⟩ :=
    hupdate ({ keychain := k, index, pages } : Visit).active
  exact
    { http := hread.http
      blocks := hread.blocks
      headers := hread.headers
      anchors := hanchors.trans (by rw [hread.update])
      txs := htxs.trans (by rw [hread.update])
      seenAts := hseen.trans (by rw [hread.update])
      evictedAts := hevicted.trans (by rw [hread.update])
      visits := by
        show next.visits ++ _ = _
        rw [hread.visits]
      asked := ⟨body, hbody⟩
      answered := hread.answered
      history := hread.history }

/-- The number of unused scripts at the end of a list of visits. -/
def gapAfter (gap : Nat) (visits : List Visit) : Nat :=
  visits.foldl (fun gap v => if v.active then 0 else gap + 1) gap

/-- The visits of a keychain: consecutive, with the stop condition at the last
    one and at no earlier one. -/
inductive Stopped (env : ChainEnv State Wallet) (wallet : Wallet) (k : KeychainKind) :
    Nat → Nat → List Visit → Prop where
  | stop {index gap : Nat} {v : Visit} (hk : v.keychain = k) (hi : v.index = index)
      (hpast : pastGap env wallet k index (gapAfter gap [v]) = true) :
      Stopped env wallet k index gap [v]
  | next {index gap : Nat} {v : Visit} {vs : List Visit} (hk : v.keychain = k)
      (hi : v.index = index) (hpast : pastGap env wallet k index (gapAfter gap [v]) = false)
      (hrest : Stopped env wallet k (index + 1) (gapAfter gap [v]) vs) :
      Stopped env wallet k index gap (v :: vs)

/-- A loop over scripts visits from its index on, and stops where it may. -/
theorem scanScripts_eq_ok {wallet : Wallet} {k : KeychainKind} {remaining index gap : Nat}
    {found found' : Found}
    (h : scanScripts env out wallet k remaining index gap found = .ok found') :
    ∃ vs, Stopped env wallet k index gap vs ∧ vs.length ≤ remaining ∧
      found'.visits = found.visits ++ vs := by
  induction remaining generalizing index gap found with
  | zero => cases h
  | succ remaining ih =>
      simp only [scanScripts, bind_eq_ok] at h
      obtain ⟨⟨visit, next⟩, hscript, hrest⟩ := h
      obtain ⟨hk, hi, hvisited⟩ := scanScript_eq_ok hscript
      have hgap : (if visit.active then 0 else gap + 1) = gapAfter gap [visit] := rfl
      simp only [hgap] at hrest
      split_ifs at hrest with hpast
      · cases hrest
        exact ⟨[visit], .stop hk hi hpast, by simp, hvisited.visits⟩
      · obtain ⟨vs, hstopped, hlength, hvisits⟩ := ih hrest
        refine ⟨visit :: vs, .next hk hi (Bool.eq_false_iff.mpr hpast) hstopped, ?_, ?_⟩
        · simpa using hlength
        · rw [hvisits, hvisited.visits, List.append_assoc, List.singleton_append]

/-! ## Where the search stops -/

namespace Stopped

variable {wallet : Wallet} {k : KeychainKind} {index gap : Nat} {vs : List Visit}

theorem length_pos (h : Stopped env wallet k index gap vs) : 0 < vs.length := by
  cases h <;> simp

theorem keychain (h : Stopped env wallet k index gap vs) : ∀ v ∈ vs, v.keychain = k := by
  induction h with
  | stop hk _ _ => simpa using hk
  | next hk _ _ _ ih => simpa using ⟨hk, ih⟩

/-- The visited indices are those from the first to the last. -/
theorem mem_index (h : Stopped env wallet k index gap vs) (i : Nat) :
    (∃ v ∈ vs, v.index = i) ↔ index ≤ i ∧ i < index + vs.length := by
  induction h with
  | @stop index gap v _ hi _ =>
      simp only [List.mem_singleton, exists_eq_left, hi, List.length_singleton]
      omega
  | @next index gap v vs _ hi _ hrest ih =>
      have hpos := hrest.length_pos
      simp only [List.mem_cons, or_and_right, exists_or, exists_eq_left, ih, hi,
        List.length_cons]
      omega

theorem past_last (h : Stopped env wallet k index gap vs) :
    pastGap env wallet k (index + vs.length - 1) (gapAfter gap vs) = true := by
  induction h with
  | stop _ _ hpast => exact hpast
  | @next index gap v vs _ _ _ hrest ih =>
      have hlast : index + (v :: vs).length - 1 = index + 1 + vs.length - 1 := by
        rw [List.length_cons]
        omega
      rw [hlast]
      exact ih

end Stopped

/-- Every script adds at most one to the gap. -/
theorem gapAfter_le (gap : Nat) (vs : List Visit) : gapAfter gap vs ≤ gap + vs.length := by
  induction vs generalizing gap with
  | nil => simp [gapAfter]
  | cons v vs ih =>
      have hstep : gapAfter gap (v :: vs) = gapAfter (if v.active then 0 else gap + 1) vs := rfl
      have hle := ih (if v.active then 0 else gap + 1)
      rw [hstep, List.length_cons]
      split_ifs at hle ⊢ <;> omega

theorem pastGap_eq_true {wallet : Wallet} {k : KeychainKind} {index gap : Nat} :
    pastGap env wallet k index gap = true ↔
      20 ≤ gap ∧ min ((env.derivationIndex wallet k).getD 0 + 19) (2 ^ 32 - 1) ≤ index := by
  rw [pastGap, gapLimit, Bool.and_eq_true, decide_eq_true_iff, decide_eq_true_iff]

namespace Stopped

variable {wallet : Wallet} {k : KeychainKind} {index gap : Nat} {vs : List Visit}

/-- Twenty scripts follow every active one. -/
theorem active_le (h : Stopped env wallet k index gap vs) :
    ∀ v ∈ vs, v.active = true → v.index + 20 < index + vs.length := by
  induction h with
  | @stop index gap v _ _ hpast =>
      intro v' hv' hactive
      cases List.mem_singleton.mp hv'
      have hgap : gapAfter gap [v] = 0 := by simp [gapAfter, hactive]
      have h20 := (pastGap_eq_true.mp hpast).1
      omega
  | @next index gap v vs _ hi _ hrest ih =>
      intro v' hv' hactive
      rcases List.mem_cons.mp hv' with rfl | htail
      · -- the gap at the end counts only scripts after this one
        have hzero : gapAfter gap [v'] = 0 := by simp [gapAfter, hactive]
        have hend := (pastGap_eq_true.mp hrest.past_last).1
        have hle := gapAfter_le 0 vs
        rw [hzero] at hend
        rw [List.length_cons]
        omega
      · have hlt := ih v' htail hactive
        rw [List.length_cons]
        omega

/-- Without activity at or past the last revealed index the search ends
    nineteen scripts after it. -/
theorem stop_revealed {r : Nat} (hr : env.derivationIndex wallet k = some r)
    (h : Stopped env wallet k index gap vs) (hunused : ∀ v ∈ vs, r ≤ v.index → v.active = false)
    (hgap : index - r ≤ gap) (hindex : index ≤ r + 19) : index + vs.length ≤ r + 20 := by
  induction h with
  | stop _ _ _ =>
      rw [List.length_singleton]
      omega
  | @next index gap v vs _ hi hpast hrest ih =>
      have hv := hunused v (List.mem_cons_self ..)
      have hstep : index + 1 - r ≤ gapAfter gap [v] := by
        by_cases hactive : v.active = true
        · have hlt : index < r := by
            by_contra hle
            rw [hv (by omega)] at hactive
            cases hactive
          omega
        · have hone : gapAfter gap [v] = gap + 1 := by simp [gapAfter, hactive]
          omega
      have hlt : index < r + 19 := by
        by_contra hle
        have htrue : pastGap env wallet k index (gapAfter gap [v]) = true := by
          rw [pastGap_eq_true, hr]
          have hget : (some r).getD 0 = r := rfl
          rw [hget]
          omega
        rw [htrue] at hpast
        cases hpast
      have hrec := ih (fun v hv' => hunused v (List.mem_cons_of_mem _ hv')) hstep (by omega)
      rw [List.length_cons]
      omega

end Stopped

end Scan
end Tundra
