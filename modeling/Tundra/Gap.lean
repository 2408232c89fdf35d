/-
  Tundra.Gap

  The gap of twenty unused scripts.  The documented limit counts from the last
  revealed or active script, and the loop's own condition counts nineteen from
  a revealed one: so the search covers the gap exactly when nothing is revealed
  or something at or past the last revealed index has a history.
-/

import Tundra.Integrity
import Tundra.Fixture.Server

namespace Tundra
namespace Scan

open Checked Relational Esplora

variable {State Wallet : Type} {env : ChainEnv State Wallet} {out : Outside}

/-- The scan asked for the history of a script. -/
def Queried (env : ChainEnv State Wallet) (wallet : Wallet) (found : Found) (k : KeychainKind)
    (index : Nat) : Prop :=
  (∃ v ∈ found.visits, v.keychain = k ∧ v.index = index) ∧
  ∃ body, found.http.Answered (historyPath env wallet k index) body

/-- A script whose history was not empty. -/
def Active (found : Found) (k : KeychainKind) (index : Nat) : Prop :=
  ∃ v ∈ found.visits, v.keychain = k ∧ v.index = index ∧ ∃ page ∈ v.pages, page ≠ []

/-- The indices the gap counts from: the last revealed one and the active ones. -/
def used (env : ChainEnv State Wallet) (wallet : Wallet) (found : Found) (k : KeychainKind) :
    Set Nat :=
  {index | env.derivationIndex wallet k = some index ∨ Active found k index}

/-- The twenty scripts after the greatest used index have been asked for, and
    so have all before them. -/
def CoversGap (env : ChainEnv State Wallet) (wallet : Wallet) (found : Found)
    (k : KeychainKind) : Prop :=
  (∀ last, IsGreatest (used env wallet found k) last → ∀ index ≤ last + 20,
    Queried env wallet found k index) ∧
  (used env wallet found k = ∅ → ∀ index ≤ 19, Queried env wallet found k index)

theorem Visit.active_iff (v : Visit) : v.active = true ↔ ∃ page ∈ v.pages, page ≠ [] := by
  simp [Visit.active, List.any_eq_true]

/-- The visits of one keychain in an accepted scan. -/
theorem scanAll_keychain {wallet : Wallet} {endpoint : String} {observedAt height : Nat}
    {tip : BlockHash} {found : Found}
    (h : scanAll env out wallet endpoint observedAt = .ok (height, tip, found))
    (k : KeychainKind) :
    ∃ vs, Stopped env wallet k 0 0 vs ∧ vs.length ≤ maxScripts ∧
      ∀ v, v ∈ vs ↔ v ∈ found.visits ∧ v.keychain = k := by
  obtain ⟨_, _, _, external, internal, _, hstop, hlength, hstop', hlength', hvisits, _⟩ :=
    scanAll_eq_ok h
  have hmem : ∀ v, v ∈ found.visits ↔ v ∈ external ∨ v ∈ internal := by
    intro v
    rw [hvisits, List.mem_append]
  have hext := hstop.keychain
  have hint := hstop'.keychain
  cases k with
  | external =>
      refine ⟨external, hstop, hlength, fun v => ⟨fun hv => ?_, ?_⟩⟩
      · exact ⟨(hmem v).mpr (.inl hv), hext v hv⟩
      · rintro ⟨hv, hk⟩
        rcases (hmem v).mp hv with hin | hin
        · exact hin
        · rw [hint v hin] at hk
          cases hk
  | internal =>
      refine ⟨internal, hstop', hlength', fun v => ⟨fun hv => ?_, ?_⟩⟩
      · exact ⟨(hmem v).mpr (.inr hv), hint v hv⟩
      · rintro ⟨hv, hk⟩
        rcases (hmem v).mp hv with hin | hin
        · rw [hext v hin] at hk
          cases hk
        · exact hin

/-- Every visit was a request that was answered. -/
theorem scanAll_asked {wallet : Wallet} {endpoint : String} {observedAt height : Nat}
    {tip : BlockHash} {found : Found}
    (h : scanAll env out wallet endpoint observedAt = .ok (height, tip, found)) :
    ∀ v ∈ found.visits, ∃ body,
      found.http.Answered (historyPath env wallet v.keychain v.index) body := by
  obtain ⟨started, searched, downloaded, _, _, _, _, _, _, _, _, hsearched, _, hgrow, _, hext, _⟩ :=
    scanAll_eq_ok h
  intro v hv
  rw [hext.visits] at hv
  have hv' : v ∈ searched.visits := hgrow.visits ▸ hv
  obtain ⟨body, hbody⟩ := hsearched.asked v hv'
  exact ⟨body, (hbody.mono hgrow.http).mono hext.http⟩

/-- The scripts asked for are those up to the one where the search stopped. -/
theorem queried_iff {wallet : Wallet} {found : Found} {k : KeychainKind} {vs : List Visit}
    (hasked : ∀ v ∈ found.visits, ∃ body,
      found.http.Answered (historyPath env wallet v.keychain v.index) body)
    (hstop : Stopped env wallet k 0 0 vs)
    (hmem : ∀ v, v ∈ vs ↔ v ∈ found.visits ∧ v.keychain = k) (index : Nat) :
    Queried env wallet found k index ↔ index < vs.length := by
  have hindex := hstop.mem_index index
  rw [Nat.zero_add] at hindex
  constructor
  · rintro ⟨⟨v, hv, hk, hi⟩, _⟩
    exact (hindex.mp ⟨v, (hmem v).mpr ⟨hv, hk⟩, hi⟩).2
  · intro hlt
    obtain ⟨v, hv, hi⟩ := hindex.mpr ⟨Nat.zero_le _, hlt⟩
    obtain ⟨hin, hk⟩ := (hmem v).mp hv
    obtain ⟨body, hbody⟩ := hasked v hin
    rw [hk, hi] at hbody
    exact ⟨⟨v, hin, hk, hi⟩, body, hbody⟩

theorem active_iff {found : Found} {k : KeychainKind} {vs : List Visit}
    (hmem : ∀ v, v ∈ vs ↔ v ∈ found.visits ∧ v.keychain = k) (index : Nat) :
    Active found k index ↔ ∃ v ∈ vs, v.index = index ∧ v.active = true := by
  constructor
  · rintro ⟨v, hv, hk, hi, hpage⟩
    exact ⟨v, (hmem v).mpr ⟨hv, hk⟩, hi, v.active_iff.mpr hpage⟩
  · rintro ⟨v, hv, hi, hactive⟩
    obtain ⟨hin, hk⟩ := (hmem v).mp hv
    exact ⟨v, hin, hk, hi, v.active_iff.mp hactive⟩

/-- **The gap of an accepted scan.**  For each keychain, the scripts up to the
    twentieth after the last revealed or active one have all been asked for if
    and only if nothing is revealed or a script at or past the last revealed
    index has a history. -/
theorem scan_covers_gap_iff {wallet : Wallet} {endpoint : String} {observedAt height : Nat}
    {tip : BlockHash} {found : Found}
    (h : scanAll env out wallet endpoint observedAt = .ok (height, tip, found))
    (k : KeychainKind) :
    CoversGap env wallet found k ↔
      ∀ revealed, env.derivationIndex wallet k = some revealed →
        ∃ index, revealed ≤ index ∧ Active found k index := by
  obtain ⟨vs, hstop, hlength, hmem⟩ := scanAll_keychain h k
  have hqueried := queried_iff (scanAll_asked h) hstop hmem
  have hactive := active_iff hmem
  obtain ⟨hgap, hlast⟩ := pastGap_eq_true.mp hstop.past_last
  have hcount := gapAfter_le 0 vs
  have htwenty : 20 ≤ vs.length := by omega
  -- an active script is followed by twenty more
  have hafter : ∀ index, Active found k index → index + 20 < vs.length := by
    intro index hindex
    obtain ⟨v, hv, hi, ha⟩ := (hactive index).mp hindex
    have hlt := hstop.active_le v hv ha
    omega
  constructor
  · rintro ⟨hcovered, _⟩ r hr
    by_contra hnone
    push Not at hnone
    have hunused : ∀ v ∈ vs, r ≤ v.index → v.active = false := by
      intro v hv hle
      by_contra hactive'
      exact hnone v.index hle ((hactive v.index).mpr ⟨v, hv, rfl, by simpa using hactive'⟩)
    have hgreatest : IsGreatest (used env wallet found k) r := by
      refine ⟨.inl hr, ?_⟩
      rintro index (hrevealed | hused)
      · rw [hr] at hrevealed
        exact (Option.some.inj hrevealed).ge
      · by_contra hlt
        exact hnone index (by omega) hused
    have hend := hstop.stop_revealed hr hunused (by omega) (by omega)
    have hlt := (hqueried (r + 20)).mp (hcovered r hgreatest (r + 20) (Nat.le_refl _))
    omega
  · intro hcond
    refine ⟨fun last hgreatest index hle => ?_, fun _ index hle => ?_⟩
    · refine (hqueried index).mpr ?_
      rcases hgreatest.1 with hrevealed | hused
      · obtain ⟨later, hlater, hused⟩ := hcond last hrevealed
        have hle' : later ≤ last := hgreatest.2 (.inr hused)
        have hlt := hafter later hused
        omega
      · have hlt := hafter last hused
        omega
    · exact (hqueried index).mpr (by omega)

section Examples

open Fixture

/-- With one address revealed and no activity, the search of the receive
    addresses ends at index 19. -/
theorem quiet_visits :
    ∃ height tip found,
      scanAll chainEnv (quiet 0 (genesisHash .regtest)) revealedWallet "" 0 =
        .ok (height, tip, found) ∧
      ∀ v ∈ found.visits, v.index < 20 ∧ v.active = false := by
  obtain ⟨⟨height, tip, found⟩, hscan, hcheck⟩ := exists_ok_of_any
    (x := scanAll chainEnv (quiet 0 (genesisHash .regtest)) revealedWallet "" 0)
    (p := fun r => r.2.2.visits.all (fun v => v.index < 20 && !v.active)) (by decide +kernel)
  refine ⟨height, tip, found, hscan, fun v hv => ?_⟩
  simpa using List.all_eq_true.mp hcheck v hv

/-- Index 20 is the twentieth after the revealed one, and is not asked for. -/
theorem scan_misses_gap :
    ∃ height tip found,
      scanAll chainEnv (quiet 0 (genesisHash .regtest)) revealedWallet "" 0 =
        .ok (height, tip, found) ∧ ¬ CoversGap chainEnv revealedWallet found .external := by
  obtain ⟨height, tip, found, hscan, hvisits⟩ := quiet_visits
  refine ⟨height, tip, found, hscan, fun hcovers => ?_⟩
  have hgreatest : IsGreatest (used chainEnv revealedWallet found .external) 0 := by
    refine ⟨.inl rfl, ?_⟩
    rintro index (hrevealed | ⟨v, hv, _, _, hpage⟩)
    · have hzero : some 0 = some index := hrevealed
      cases hzero
      exact Nat.le_refl 0
    · have hactive := v.active_iff.mpr hpage
      rw [(hvisits v hv).2] at hactive
      cases hactive
  obtain ⟨⟨v, hv, _, hi⟩, _⟩ := hcovers.1 0 hgreatest 20 (Nat.le_refl 20)
  have hlt := (hvisits v hv).1
  omega

theorem scan_covers_gap_iff_quiet :
    ∃ height tip found,
      scanAll chainEnv (quiet 0 (genesisHash .regtest)) revealedWallet "" 0 =
        .ok (height, tip, found) ∧
      (CoversGap chainEnv revealedWallet found .external ↔
        ∀ revealed, chainEnv.derivationIndex revealedWallet .external = some revealed →
          ∃ index, revealed ≤ index ∧ Active found .external index) := by
  obtain ⟨height, tip, found, hscan, _⟩ := quiet_visits
  exact ⟨height, tip, found, hscan, scan_covers_gap_iff hscan .external⟩

end Examples

end Scan
end Tundra
