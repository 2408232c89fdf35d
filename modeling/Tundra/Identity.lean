/-
  Tundra.Identity

  The identity of a wallet.  What the importer accepts are the receive and
  change descriptors of one list of accounts, in any two orders; the preview is
  a function of the policy, the network and the accounts without their order.

  `DescriptorEnv` states how miniscript writes and reads the two supported
  forms.  An account key is written as its origin, its extended key and its
  branch, and a descriptor as its keys between a fixed head and tail.
-/

import Tundra.Inputs
import Mathlib.Data.List.Perm.Basic

namespace Tundra

/-- The branch of a keychain's descriptor. -/
def KeychainKind.branch : KeychainKind → UInt32
  | .external => 0
  | .internal => 1

def KeychainKind.branchText : KeychainKind → String
  | .external => "0"
  | .internal => "1"

namespace Descriptors

open Checked

/-! ## Accounts -/

/-- An account key with the origin it was derived from. -/
structure Account where
  origin : KeySource
  xkey : Xpub
  size : xkey.length = 78
  hasPath : origin.path ≠ []

/-- The key of an account on one branch. -/
def accountKey (k : KeychainKind) (a : Account) : DescriptorPublicKey :=
  .xpub
    { origin := some a.origin
      xkey := a.xkey
      derivationPath := [k.branch]
      wildcard := .unhardened }

/-- How many keys a policy has. -/
def keyCount : Policy → Nat
  | .singleSig => 1
  | .twoOfThree => 3

/-- The descriptor of a policy over its keys. -/
def describe (p : Policy) (keys : List DescriptorPublicKey) : PublicDescriptor :=
  match p, keys with
  | .singleSig, [key] => .wpkh key
  | .singleSig, keys => .other keys
  | .twoOfThree, keys => .wshSortedMulti 2 keys

/-- The text of a descriptor over the texts of its keys. -/
def bodyText (p : Policy) (keys : List String) : String :=
  match p with
  | .singleSig => "wpkh(" ++ String.intercalate "," keys ++ ")"
  | .twoOfThree => "wsh(sortedmulti(2," ++ String.intercalate "," keys ++ "))"

section Texts

variable {State Wallet Scan : Type} (env : Crates State Wallet Scan)

/-- An account's origin and extended key. -/
def accountText (a : Account) : String :=
  "[" ++ env.displayKeySource a.origin ++ "]" ++ env.displayXpub a.xkey

/-- The key of an account below a branch. -/
def keyText (branch : String) (a : Account) : String :=
  accountText env a ++ "/" ++ branch ++ "/*"

/-- The key of an account on both branches. -/
def multipathKey (a : Account) : DescriptorPublicKey := .other (keyText env "<0;1>" a)

end Texts

/-! ## What the importer relies on -/

/-- The crates, with the descriptors they read and write. -/
structure DescriptorEnv (State Wallet Scan : Type) extends Env State Wallet Scan where
  /-- An extended key is 78 bytes, and one of them is its depth. -/
  parseDescriptor_xpub : ∀ s d, parseDescriptor s = some d → ∀ x, .xpub x ∈ d.keys →
    x.xkey.length = 78
  xpubInfo_depth : ∀ x, (xpubInfo x).depth ≤ 255
  displayKeySource_chars : ∀ k, ∀ c ∈ (displayKeySource k).toList,
    c.isAlphanum = true ∨ c = '/' ∨ c = '\''
  displayKeySource_length : ∀ k, (displayKeySource k).length ≤ 8 + 12 * k.path.length
  displayKeySource_inj : ∀ k k', k.path ≠ [] → k'.path ≠ [] →
    displayKeySource k = displayKeySource k' → k = k'
  displayXpub_chars : ∀ x, ∀ c ∈ (displayXpub x).toList, c.isAlphanum = true
  displayXpub_length : ∀ x, x.length = 78 → (displayXpub x).length ≤ 160
  displayXpub_inj : ∀ x x', x.length = 78 → x'.length = 78 → displayXpub x = displayXpub x' → x = x'
  sortKeys_perm : ∀ keys, (sortKeys keys).Perm keys
  sortKeys_congr : ∀ keys keys', keys.Perm keys' → sortKeys keys = sortKeys keys'
  descriptorBody_multipath : ∀ p (accounts : List Account), accounts.length = keyCount p →
    descriptorBody (describe p (accounts.map (multipathKey toCrates))) =
      bodyText p (accounts.map (keyText toCrates "<0;1>"))
  /-- A descriptor is read back from its text, with or without the checksum. -/
  parseDescriptor_body : ∀ p (accounts : List Account) k, accounts.length = keyCount p →
    parseDescriptor (bodyText p (accounts.map (keyText toCrates k.branchText))) =
      some (describe p (accounts.map (accountKey k)))
  displayDescriptor_body : ∀ p (accounts : List Account) k, accounts.length = keyCount p →
    ∃ sum, sum.length = 8 ∧ (∀ c ∈ sum.toList, c.isAlphanum = true) ∧
      displayDescriptor (describe p (accounts.map (accountKey k))) =
        bodyText p (accounts.map (keyText toCrates k.branchText)) ++ "#" ++ sum
  parseDescriptor_display : ∀ p (accounts : List Account) k, accounts.length = keyCount p →
    parseDescriptor (displayDescriptor (describe p (accounts.map (accountKey k)))) =
      some (describe p (accounts.map (accountKey k)))
  /-- The JSON list of two texts that need no escapes. -/
  descriptorPairJson_eq : ∀ r c, (∀ x ∈ r.toList, x.val < 128 ∧ jsonChar x = [x]) →
    (∀ x ∈ c.toList, x.val < 128 ∧ jsonChar x = [x]) →
    descriptorPairJson r c = "\x7b\"descriptors\":[\x7b\"desc\":\"" ++ r ++
      "\",\"internal\":false\x7d,\x7b\"desc\":\"" ++ c ++ "\",\"internal\":true\x7d]\x7d" ∧
    parseJson (descriptorPairJson r c) = some (descriptorList r c)

variable {State Wallet Scan : Type} (env : DescriptorEnv State Wallet Scan)

/-! ## The keys of an accepted descriptor -/

/-- What the importer requires of the accounts of a wallet. -/
structure AccountsOk (network : Network) (accounts : List Account) : Prop where
  network : ∀ a ∈ accounts, (env.xpubInfo a.xkey).isMainnet = (network == .mainnet)
  depth : ∀ a ∈ accounts, (env.xpubInfo a.xkey).depth = a.origin.path.length
  materials : (accounts.map (fun a => (env.xpubInfo a.xkey).material)).Nodup
  fingerprints : (accounts.map (fun a => a.origin.fingerprint)).Nodup

theorem AccountsOk.perm {network : Network} {accounts order : List Account}
    (h : AccountsOk env network accounts) (hperm : accounts.Perm order) :
    AccountsOk env network order where
  network a ha := h.network a (hperm.mem_iff.mpr ha)
  depth a ha := h.depth a (hperm.mem_iff.mpr ha)
  materials := (hperm.map _).nodup_iff.mp h.materials
  fingerprints := (hperm.map _).nodup_iff.mp h.fingerprints

/-- The loop over the keys accepts account keys that are new to it. -/
theorem keyIdentities_accounts {k : KeychainKind} {network : Network} {accounts : List Account}
    {materials : List String} {fingerprints : List UInt32} (h : AccountsOk env network accounts)
    (hmaterials : ∀ a ∈ accounts, (env.xpubInfo a.xkey).material ∉ materials)
    (hfingerprints : ∀ a ∈ accounts, a.origin.fingerprint ∉ fingerprints) :
    keyIdentities env.toEnv k.branch network (accounts.map (accountKey k)) materials fingerprints =
      .ok (accounts.map (accountText env.toCrates)) := by
  induction accounts generalizing materials fingerprints with
  | nil => rfl
  | cons a accounts ih =>
      obtain ⟨hnetwork, hnetworks⟩ := List.forall_mem_cons.mp h.network
      obtain ⟨hdepth, hdepths⟩ := List.forall_mem_cons.mp h.depth
      obtain ⟨hmaterial, hmaterials'⟩ := List.forall_mem_cons.mp hmaterials
      obtain ⟨hfingerprint, hfingerprints'⟩ := List.forall_mem_cons.mp hfingerprints
      obtain ⟨hnewMaterial, hrestMaterials⟩ := List.nodup_cons.mp h.materials
      obtain ⟨hnewFingerprint, hrestFingerprints⟩ := List.nodup_cons.mp h.fingerprints
      have hfreshMaterials : ∀ b ∈ accounts, (env.xpubInfo b.xkey).material ∉
          (env.xpubInfo a.xkey).material :: materials :=
        fun b hb hin => (List.mem_cons.mp hin).elim
          (fun heq => hnewMaterial (List.mem_map.mpr ⟨b, hb, heq⟩)) (hmaterials' b hb)
      have hfreshFingerprints : ∀ b ∈ accounts, b.origin.fingerprint ∉
          a.origin.fingerprint :: fingerprints :=
        fun b hb hin => (List.mem_cons.mp hin).elim
          (fun heq => hnewFingerprint (List.mem_map.mpr ⟨b, hb, heq⟩)) (hfingerprints' b hb)
      have hrest := ih ⟨hnetworks, hdepths, hrestMaterials, hrestFingerprints⟩ hfreshMaterials
        hfreshFingerprints
      have hkey : Wildcard.unhardened = .unhardened ∧ [k.branch] = [k.branch] ∧ a.origin.path ≠ [] ∧
          (env.xpubInfo a.xkey).depth = a.origin.path.length := ⟨rfl, rfl, a.hasPath, hdepth⟩
      rw [List.map_cons, accountKey, keyIdentities]
      dsimp only
      rw [okOr_some, ok_bind, require_of hnetwork, ok_bind, require_of hkey, ok_bind,
        require_of ⟨hmaterial, hfingerprint⟩, ok_bind]
      rw [hrest]
      rfl

/-- The keys the loop accepts are those of accounts. -/
theorem accounts_of_keyIdentities {k : KeychainKind} {network : Network}
    {keys : List DescriptorPublicKey} {materials : List String} {fingerprints : List UInt32}
    {identities : List String} (hsize : ∀ x, .xpub x ∈ keys → x.xkey.length = 78)
    (h : keyIdentities env.toEnv k.branch network keys materials fingerprints = .ok identities) :
    ∃ accounts : List Account, keys = accounts.map (accountKey k) ∧
      AccountsOk env network accounts ∧ identities = accounts.map (accountText env.toCrates) ∧
      (∀ a ∈ accounts, (env.xpubInfo a.xkey).material ∉ materials) ∧
      ∀ a ∈ accounts, a.origin.fingerprint ∉ fingerprints := by
  induction keys generalizing materials fingerprints identities with
  | nil =>
      cases h
      exact ⟨[], rfl, ⟨by simp, by simp, by simp, by simp⟩, rfl, by simp, by simp⟩
  | cons key keys ih =>
      cases key with
      | other text => cases h
      | xpub x =>
          simp only [keyIdentities, bind_eq_ok, okOr_eq_ok, require_eq_ok, exists_unit,
            Except.ok.injEq] at h
          obtain ⟨origin, horigin, hnetwork, ⟨hwildcard, hpath, hne, hdepth⟩,
            ⟨hmaterial, hfingerprint⟩, rest, hrest, rfl⟩ := h
          obtain ⟨accounts, rfl, hok, rfl, hmaterials, hfingerprints⟩ :=
            ih (fun y hy => hsize y (List.mem_cons_of_mem _ hy)) hrest
          let a : Account :=
            { origin, xkey := x.xkey, size := hsize x (List.mem_cons_self ..), hasPath := hne }
          refine ⟨a :: accounts, ?_, ⟨?_, ?_, ?_, ?_⟩, rfl, ?_, ?_⟩
          · obtain ⟨origin', xkey, path, wildcard⟩ := x
            cases horigin
            cases hwildcard
            cases hpath
            rfl
          · exact List.forall_mem_cons.mpr ⟨hnetwork, hok.network⟩
          · exact List.forall_mem_cons.mpr ⟨hdepth, hok.depth⟩
          · refine List.nodup_cons.mpr ⟨fun hin => ?_, hok.materials⟩
            obtain ⟨b, hb, heq⟩ := List.mem_map.mp hin
            exact hmaterials b hb (heq ▸ List.mem_cons_self ..)
          · refine List.nodup_cons.mpr ⟨fun hin => ?_, hok.fingerprints⟩
            obtain ⟨b, hb, heq⟩ := List.mem_map.mp hin
            exact hfingerprints b hb (heq ▸ List.mem_cons_self ..)
          · exact List.forall_mem_cons.mpr
              ⟨hmaterial, fun b hb hin => hmaterials b hb (List.mem_cons_of_mem _ hin)⟩
          · exact List.forall_mem_cons.mpr
              ⟨hfingerprint, fun b hb hin => hfingerprints b hb (List.mem_cons_of_mem _ hin)⟩

/-! ## Account texts -/

theorem alphanum_ne {c : Char} (h : c.isAlphanum = true) {d : Char} (hd : d.isAlphanum = false) :
    c ≠ d := by
  rintro rfl
  rw [h] at hd
  cases hd

theorem displayKeySource_ne (k : KeySource) {d : Char} (hd : d.isAlphanum = false)
    (hslash : d ≠ '/') (hmark : d ≠ '\'') : d ∉ (env.displayKeySource k).toList := by
  intro hmem
  rcases env.displayKeySource_chars k d hmem with h | h | h
  · exact alphanum_ne h hd rfl
  · exact hslash h
  · exact hmark h

theorem displayXpub_ne (x : Xpub) {d : Char} (hd : d.isAlphanum = false) :
    d ∉ (env.displayXpub x).toList :=
  fun hmem => alphanum_ne (env.displayXpub_chars x d hmem) hd rfl

theorem toList_accountText (a : Account) : (accountText env.toCrates a).toList =
    '[' :: ((env.displayKeySource a.origin).toList ++ ']' :: (env.displayXpub a.xkey).toList) := by
  simp [accountText]

theorem accountText_injective : Function.Injective (accountText env.toCrates) := by
  intro a b h
  have hchars := congrArg String.toList h
  rw [toList_accountText, toList_accountText, List.cons.injEq,
    List.append_cons_inj_of_notMem (displayKeySource_ne env _ (by decide) (by decide) (by decide))
      (displayXpub_ne env _ (by decide))] at hchars
  obtain ⟨-, horigin, -, hxkey⟩ := hchars
  have horigin' := env.displayKeySource_inj _ _ a.hasPath b.hasPath (String.toList_inj.mp horigin)
  have hxkey' := env.displayXpub_inj _ _ a.size b.size (String.toList_inj.mp hxkey)
  obtain ⟨origin, xkey, size, hasPath⟩ := a
  cases horigin'
  cases hxkey'
  rfl

/-! ## Descriptors of accounts -/

section Describe

variable {env} {p : Policy} {k : KeychainKind} {network : Network} {accounts order : List Account}

@[simp] theorem describe_keys (p : Policy) (keys : List DescriptorPublicKey) :
    (describe p keys).keys = keys := by
  cases p with
  | singleSig =>
      match keys with
      | [] => rfl
      | [_] => rfl
      | _ :: _ :: _ => rfl
  | twoOfThree => rfl

theorem policy_describe {keys : List DescriptorPublicKey} (h : keys.length = keyCount p) :
    policy (describe p keys) = .ok p := by
  cases p with
  | singleSig =>
      obtain ⟨key, rfl⟩ := List.length_eq_one_iff.mp h
      rfl
  | twoOfThree => exact if_pos ⟨rfl, h⟩

/-- A supported descriptor is that of its keys. -/
theorem describe_of_policy {d : PublicDescriptor} (h : policy d = .ok p) :
    d = describe p d.keys ∧ d.keys.length = keyCount p := by
  cases d with
  | wpkh key =>
      cases h
      exact ⟨rfl, rfl⟩
  | wshSortedMulti n keys =>
      simp only [policy] at h
      split_ifs at h with hshape
      cases h
      obtain ⟨rfl, hlength⟩ := hshape
      exact ⟨rfl, hlength⟩
  | other keys => cases h

theorem identities_describe (h : AccountsOk env network accounts) :
    identities env.toEnv (describe p (accounts.map (accountKey k))) k.branch network =
      .ok (sortStrings (accounts.map (accountText env.toCrates))) := by
  rw [identities, describe_keys, keyIdentities_accounts env h (by simp) (by simp), ok_bind]

theorem sortStrings_perm (l : List String) : (sortStrings l).Perm l := List.perm_insertionSort _ l

theorem sortStrings_congr {l l' : List String} (h : l.Perm l') : sortStrings l = sortStrings l' :=
  (((sortStrings_perm l).trans h).trans (sortStrings_perm l').symm).eq_of_pairwise
    (fun _ _ _ _ hab hba => String.le_antisymm hab hba)
    (List.pairwise_insertionSort _ l) (List.pairwise_insertionSort _ l')

/-- The canonical descriptor does not depend on the order of the keys. -/
theorem canonical_congr {keys keys' : List DescriptorPublicKey} (hlength : keys.length = keyCount p)
    (h : keys.Perm keys') :
    canonicalDescriptor env.toEnv (describe p keys) =
      canonicalDescriptor env.toEnv (describe p keys') := by
  cases p with
  | singleSig =>
      obtain ⟨key, rfl⟩ := List.length_eq_one_iff.mp hlength
      rw [List.singleton_perm.mp h]
  | twoOfThree =>
      show PublicDescriptor.wshSortedMulti 2 (env.sortKeys keys) = .wshSortedMulti 2 (env.sortKeys keys')
      rw [env.sortKeys_congr keys keys' h]

variable (env k) in
/-- The canonical descriptor is that of the accounts in some order. -/
theorem canonical_order (hlength : accounts.length = keyCount p) :
    ∃ order : List Account, order.Perm accounts ∧
      canonicalDescriptor env.toEnv (describe p (accounts.map (accountKey k))) =
        describe p (order.map (accountKey k)) := by
  cases p with
  | singleSig =>
      obtain ⟨a, rfl⟩ := List.length_eq_one_iff.mp hlength
      exact ⟨[a], .refl _, rfl⟩
  | twoOfThree =>
      have hperm := env.sortKeys_perm (accounts.map (accountKey k))
      obtain ⟨order, hsorted, horder⟩ : Relation.Comp (fun keys order => keys = order.map (accountKey k))
          List.Perm (env.sortKeys (accounts.map (accountKey k))) accounts := by
        rw [List.eq_map_comp_perm]
        exact hperm
      refine ⟨order, horder, ?_⟩
      show PublicDescriptor.wshSortedMulti 2 (env.sortKeys (accounts.map (accountKey k))) = _
      rw [hsorted]
      rfl

end Describe

/-! ## The preview of accounts -/

/-- The canonical text of the accounts' descriptor on a keychain. -/
def canonicalText (p : Policy) (k : KeychainKind) (accounts : List Account) : String :=
  env.displayDescriptor
    (canonicalDescriptor env.toEnv (describe p (accounts.map (accountKey k))))

/-- What the id of a wallet is the hash of. -/
def encoding (network : Network) (receive change : String) : String :=
  "tundra:v1:" ++ network.key ++ ":" ++ receive ++ ":" ++ change

/-- The preview of accepted accounts. -/
structure Previewed (network : Network) (accounts : List Account) (preview : ImportPreview) :
    Prop where
  ok : AccountsOk env network accounts
  length : accounts.length = keyCount preview.policy
  onNetwork : preview.network = network
  receive : preview.receiveDescriptor = canonicalText env preview.policy .external accounts
  change : preview.changeDescriptor = canonicalText env preview.policy .internal accounts
  id : preview.id =
    env.sha256Hex (encoding network preview.receiveDescriptor preview.changeDescriptor)
  wallet : ∃ wallet, env.createWallet network preview.receiveDescriptor preview.changeDescriptor =
      some wallet ∧ preview.firstAddress = env.peekAddress wallet .external 0

section Preview

variable {env} {network : Network} {p : Policy} {accounts order : List Account}
  {preview preview' : ImportPreview}

theorem canonicalText_congr {k : KeychainKind} (hlength : accounts.length = keyCount p)
    (h : accounts.Perm order) : canonicalText env p k accounts = canonicalText env p k order := by
  rw [canonicalText, canonicalText, canonical_congr (by rw [List.length_map, hlength]) (h.map _)]

/-- The preview does not depend on the order of the accounts. -/
theorem Previewed.perm (h : Previewed env network accounts preview) (hperm : accounts.Perm order) :
    Previewed env network order preview where
  ok := h.ok.perm env hperm
  length := hperm.length_eq ▸ h.length
  onNetwork := h.onNetwork
  receive := h.receive.trans (canonicalText_congr h.length hperm)
  change := h.change.trans (canonicalText_congr h.length hperm)
  id := h.id
  wallet := h.wallet

/-- One list of accounts has one preview. -/
theorem Previewed.unique (h : Previewed env network accounts preview)
    (h' : Previewed env network accounts preview') (hpolicy : preview.policy = preview'.policy) :
    preview = preview' := by
  obtain ⟨wallet, hwallet, haddress⟩ := h.wallet
  obtain ⟨wallet', hwallet', haddress'⟩ := h'.wallet
  have hreceive : preview.receiveDescriptor = preview'.receiveDescriptor := by
    rw [h.receive, h'.receive, hpolicy]
  have hchange : preview.changeDescriptor = preview'.changeDescriptor := by
    rw [h.change, h'.change, hpolicy]
  rw [hreceive, hchange, hwallet', Option.some.injEq] at hwallet
  have hid : preview.id = preview'.id := by
    rw [h.id, h'.id, hreceive, hchange]
  have hfirst : preview.firstAddress = preview'.firstAddress := by
    rw [haddress, haddress', hwallet]
  have hnetwork : preview.network = preview'.network := h.onNetwork.trans h'.onNetwork.symm
  obtain ⟨id, network, policy, receive, change, first⟩ := preview
  cases hid
  cases hnetwork
  cases hpolicy
  cases hreceive
  cases hchange
  cases hfirst
  rfl

/-- A descriptor pair is accepted when its sides are descriptors of one list of
    accounts, in any two orders. -/
theorem previewPair_eq_ok {receive change : PublicDescriptor}
    (hreceive : ∀ x, .xpub x ∈ receive.keys → x.xkey.length = 78)
    (hchange : ∀ x, .xpub x ∈ change.keys → x.xkey.length = 78) :
    previewPair env.toEnv receive change network = .ok preview ↔
      ∃ accounts order : List Account, accounts.Perm order ∧
        receive = describe preview.policy (accounts.map (accountKey .external)) ∧
        change = describe preview.policy (order.map (accountKey .internal)) ∧
        Previewed env network accounts preview := by
  simp only [previewPair, bind_eq_ok, require_eq_ok, exists_unit, okOr_eq_ok, Except.ok.injEq]
  constructor
  · rintro ⟨p, hp, p', hp', rfl, receiveKeys, hreceiveKeys, changeKeys, hchangeKeys, rfl, wallet,
      hwallet, rfl⟩
    simp only [identities, bind_eq_ok, Except.ok.injEq] at hreceiveKeys hchangeKeys
    obtain ⟨texts, hkeys, rfl⟩ := hreceiveKeys
    obtain ⟨texts', hkeys', hsorted⟩ := hchangeKeys
    obtain ⟨accounts, haccounts, hok, rfl, -⟩ :=
      accounts_of_keyIdentities env (k := .external) hreceive hkeys
    obtain ⟨order, horder, -, rfl, -⟩ :=
      accounts_of_keyIdentities env (k := .internal) hchange hkeys'
    obtain ⟨hd, hlength⟩ := describe_of_policy hp
    obtain ⟨hd', -⟩ := describe_of_policy hp'
    rw [haccounts] at hd hlength
    rw [horder] at hd'
    rw [List.length_map] at hlength
    have hperm : accounts.Perm order := by
      refine (List.map_perm_map_iff (accountText_injective env)).mp ?_
      exact ((sortStrings_perm _).symm.trans (hsorted ▸ .refl _)).trans (sortStrings_perm _)
    refine ⟨accounts, order, hperm, hd, hd', hok, hlength, rfl, ?_, ?_, rfl, wallet, hwallet, rfl⟩
    · show env.displayDescriptor (canonicalDescriptor env.toEnv receive) = _
      rw [hd, canonicalText]
    · show env.displayDescriptor (canonicalDescriptor env.toEnv change) = _
      rw [hd', canonicalText_congr hlength hperm, canonicalText]
  · rintro ⟨accounts, order, hperm, rfl, rfl, h⟩
    obtain ⟨wallet, hwallet, haddress⟩ := h.wallet
    have hlength' : order.length = keyCount preview.policy := hperm.length_eq ▸ h.length
    have hreceiveText := h.receive
    have hchangeText := h.change.trans (canonicalText_congr h.length hperm)
    refine ⟨_, policy_describe (by rw [List.length_map, h.length]), _,
      policy_describe (by rw [List.length_map, hlength']), rfl, _,
      identities_describe (k := .external) h.ok, _,
      identities_describe (k := .internal) (h.ok.perm env hperm),
      sortStrings_congr (hperm.map _), wallet, ?_, ?_⟩
    · rw [hreceiveText, hchangeText] at hwallet
      exact hwallet
    · have hid := h.id
      have hnetwork := h.onNetwork
      obtain ⟨id, network', policy, receive, change, first⟩ := preview
      dsimp only at hnetwork hreceiveText hchangeText hid haddress
      subst hnetwork
      subst hid
      subst haddress
      rw [hreceiveText, hchangeText]
      rfl

end Preview

/-! ## The shapes of an import text -/

/-- The text without its surrounding space and byte order marks. -/
def inputChars (input : String) : List Char := (trim input).toList.dropWhile (· = '\ufeff')

/-- A row of a `descriptors` list. -/
def IsRow (item : Json) (d : String) (isChange : Bool) : Prop :=
  item.get "desc" = some (.string d) ∧ item.get "internal" = some (.bool isChange)

/-- The value of an import text that is JSON for the network. -/
structure IsJson (network : Network) (input : String) (v : Json) : Prop where
  size : input.utf8ByteSize ≤ maxDescriptorBytes
  head : (inputChars input).head? = some '\x7b'
  parsed : env.parseJson (String.ofList (inputChars input)) = some v
  network : v.get "network" = none ∨ v.get "network" = some (.string network.key)

/-- The texts the importer reads descriptors from, with their rows. -/
inductive Shape (network : Network) (input : String) : List String → Prop where
  | lines (rows : List String) (size : input.utf8ByteSize ≤ maxDescriptorBytes)
      (head : (inputChars input).head? ≠ some '\x7b')
      (rows_eq : ((lines (String.ofList (inputChars input))).map trim).filter (· ≠ "") = rows)
      (length : 1 ≤ rows.length ∧ rows.length ≤ 2) : Shape network input rows
  | descriptor (v : Json) (row : String) (json : IsJson env network input v)
      (field : v.get "descriptor" = some (.string row)) : Shape network input [row]
  | fields (v : Json) (r c : String) (json : IsJson env network input v)
      (other : (v.get "descriptor").bind Json.asStr = none)
      (receive : v.get "receive_descriptor" = some (.string r))
      (change : v.get "change_descriptor" = some (.string c)) : Shape network input [r, c]
  | list (v a b : Json) (r c : String) (json : IsJson env network input v)
      (other : (v.get "descriptor").bind Json.asStr = none)
      (others : (v.get "receive_descriptor").bind Json.asStr = none ∨
        (v.get "change_descriptor").bind Json.asStr = none)
      (items : v.get "descriptors" = some (.array [a, b]))
      (rows : (IsRow a r false ∧ IsRow b c true) ∨ (IsRow a c true ∧ IsRow b r false)) :
      Shape network input [r, c]

section Shapes

variable {env} {network : Network} {input : String} {rows : List String}

theorem bind_asStr {o : Option Json} {s : String} :
    o.bind Json.asStr = some s ↔ o = some (.string s) := by
  cases o with
  | none => simp
  | some v => cases v <;> simp [Json.asStr]

theorem bind_asBool {o : Option Json} {b : Bool} :
    o.bind Json.asBool = some b ↔ o = some (.bool b) := by
  cases o with
  | none => simp
  | some v => cases v <;> simp [Json.asBool]

theorem bind_asArray {o : Option Json} {items : List Json} :
    o.bind Json.asArray = some items ↔ o = some (.array items) := by
  cases o with
  | none => simp
  | some v => cases v <;> simp [Json.asArray]

/-- The rows of the list may stand in either order. -/
theorem descriptorRows_pair {a b : Json} :
    descriptorRows [a, b] none none = .ok rows ↔ ∃ r c, rows = [r, c] ∧
      ((IsRow a r false ∧ IsRow b c true) ∨ (IsRow a c true ∧ IsRow b r false)) := by
  constructor
  · intro h
    simp only [descriptorRows, bind_eq_ok, okOr_eq_ok] at h
    obtain ⟨d, hd, h⟩ := h
    split at h
    · rename_i hfalse
      simp only [if_true, bind_eq_ok, okOr_eq_ok] at h
      obtain ⟨d', hd', h⟩ := h
      split at h
      · simp at h
      · rename_i htrue
        simp only [bind_eq_ok, okOr_eq_ok, Option.some.injEq, Except.ok.injEq] at h
        obtain ⟨r, rfl, c, rfl, rfl⟩ := h
        exact ⟨d, d', rfl, .inl ⟨⟨bind_asStr.mp hd, bind_asBool.mp hfalse⟩, bind_asStr.mp hd',
          bind_asBool.mp htrue⟩⟩
      · cases h
    · rename_i htrue
      simp only [if_true, bind_eq_ok, okOr_eq_ok] at h
      obtain ⟨d', hd', h⟩ := h
      split at h
      · rename_i hfalse
        simp only [bind_eq_ok, okOr_eq_ok, Option.some.injEq, Except.ok.injEq] at h
        obtain ⟨r, rfl, c, rfl, rfl⟩ := h
        exact ⟨d', d, rfl, .inr ⟨⟨bind_asStr.mp hd, bind_asBool.mp htrue⟩, bind_asStr.mp hd',
          bind_asBool.mp hfalse⟩⟩
      · simp at h
      · cases h
    · cases h
  · rintro ⟨r, c, rfl, ⟨⟨hr, hfalse⟩, hc, htrue⟩ | ⟨⟨hc, htrue⟩, hr, hfalse⟩⟩
    · simp only [descriptorRows, hr, hc, hfalse, htrue, Option.bind_some, Json.asStr, Json.asBool,
        okOr_some, ok_bind, if_true]
    · simp only [descriptorRows, hr, hc, hfalse, htrue, Option.bind_some, Json.asStr, Json.asBool,
        okOr_some, ok_bind, if_true]

/-- The accepted texts are those of the four shapes. -/
theorem inputDescriptors_eq_ok :
    inputDescriptors env.toEnv input network = .ok rows ↔ Shape env network input rows := by
  constructor
  · intro h
    simp only [inputDescriptors, bind_eq_ok, require_eq_ok, exists_unit] at h
    obtain ⟨hsize, h⟩ := h
    split_ifs at h with hhead
    · simp only [bind_eq_ok, require_eq_ok, exists_unit, Except.ok.injEq] at h
      obtain ⟨hlength, rfl⟩ := h
      exact .lines _ hsize hhead rfl hlength
    · simp only [bind_eq_ok, okOr_eq_ok, jsonDescriptors, require_eq_ok, exists_unit] at h
      obtain ⟨v, hparse, hnetwork, h⟩ := h
      have hjson : IsJson env network input v := by
        refine ⟨hsize, not_not.mp hhead, hparse, hnetwork.imp_right fun hn => bind_asStr.mp ?_⟩
        exact hn
      split at h
      · rename_i row hrow
        cases h
        exact .descriptor v row hjson (bind_asStr.mp hrow)
      · rename_i hother
        split at h
        · rename_i r c hr hc
          cases h
          exact .fields v r c hjson hother (bind_asStr.mp hr) (bind_asStr.mp hc)
        · rename_i hothers
          split at h
          · rename_i items hitems
            simp only [bind_eq_ok, require_eq_ok, exists_unit] at h
            obtain ⟨hlength, h⟩ := h
            obtain ⟨a, b, rfl⟩ := List.length_eq_two.mp hlength
            obtain ⟨r, c, rfl, hrows⟩ := descriptorRows_pair.mp h
            refine .list v a b r c hjson hother ?_ (bind_asArray.mp hitems) hrows
            -- the pair of fields was not complete
            cases hr : (v.get "receive_descriptor").bind Json.asStr with
            | none => exact .inl rfl
            | some r' =>
                cases hc : (v.get "change_descriptor").bind Json.asStr with
                | none => exact .inr rfl
                | some c' => exact absurd hc (hothers r' c' hr)
          · cases h
  · have hjson : ∀ {v : Json}, IsJson env network input v →
        inputDescriptors env.toEnv input network = jsonDescriptors v network := by
      intro v h
      have hparse : okOr (env.parseJson (String.ofList (inputChars input)))
          (Error.invalidInput "descriptor JSON") = .ok v := by
        rw [h.parsed]
        rfl
      have hhead : ¬ (inputChars input).head? ≠ some '\x7b' := not_not.mpr h.head
      unfold inputDescriptors
      rw [require_of h.size, ok_bind]
      show (if (inputChars input).head? ≠ some '\x7b' then _ else
        okOr (env.parseJson (String.ofList (inputChars input))) _ >>= fun v => _) = _
      rw [if_neg hhead, hparse, ok_bind]
    have hnetwork : ∀ {v : Json}, IsJson env network input v →
        v.get "network" = none ∨ (v.get "network").bind Json.asStr = some network.key :=
      fun h => h.network.imp_right bind_asStr.mpr
    intro h
    cases h with
    | lines rows size head rows_eq length =>
        subst rows_eq
        unfold inputDescriptors
        rw [require_of size, ok_bind]
        refine (if_pos head).trans ?_
        unfold inputChars at length ⊢
        dsimp only
        rw [require_of length, ok_bind]
    | descriptor v row json field =>
        rw [hjson json, jsonDescriptors, require_of (hnetwork json), ok_bind, field]
        rfl
    | fields v r c json other receive change =>
        rw [hjson json, jsonDescriptors, require_of (hnetwork json), ok_bind, other, receive, change]
        rfl
    | list v a b r c json other others items rows =>
        rw [hjson json, jsonDescriptors, require_of (hnetwork json), ok_bind, other, items]
        have hrows := descriptorRows_pair.mpr ⟨r, c, rfl, rows⟩
        dsimp only
        rw [show ((some (Json.array [a, b])).bind Json.asArray) = some [a, b] from rfl]
        split
        · rename_i r' c' hr hc
          rcases others with hnone | hnone
          · rw [hnone] at hr
            cases hr
          · rw [hnone] at hc
            cases hc
        · dsimp only
          rw [require_of (by rfl), ok_bind, hrows]

end Shapes

/-! ## Multipath descriptors -/

/-- A text without the pattern's second character is one part. -/
theorem splitFrom_plain {s : List Char} (h : '<' ∉ s) : splitFrom "/<0;1>/*".toList 0 s = [s] := by
  induction s with
  | nil => rfl
  | cons c s ih =>
      have hs : '<' ∉ s := fun hin => h (List.mem_cons_of_mem _ hin)
      have hprefix : ¬ "/<0;1>/*".toList.isPrefixOf (c :: s) = true := by
        intro hp
        have hsub := (List.isPrefixOf_iff_prefix.mp hp).subset (by decide : '<' ∈ "/<0;1>/*".toList)
        exact h hsub
      rw [splitFrom, if_neg hprefix, ih hs]

/-- The part before a place of the pattern ends where the pattern begins. -/
theorem splitFrom_append {s : List Char} (rest : List Char) (h : '<' ∉ s) :
    splitFrom "/<0;1>/*".toList 0 (s ++ ("/<0;1>/*".toList ++ rest)) =
      s :: splitFrom "/<0;1>/*".toList 0 rest := by
  have hpattern : "/<0;1>/*".toList = ['/', '<', '0', ';', '1', '>', '/', '*'] := by decide
  induction s with
  | nil =>
      have hprefix : "/<0;1>/*".toList.isPrefixOf ("/<0;1>/*".toList ++ rest) = true :=
        List.isPrefixOf_iff_prefix.mpr (List.prefix_append _ rest)
      rw [hpattern] at hprefix ⊢
      rw [List.nil_append, List.cons_append, splitFrom, ← List.cons_append, if_pos hprefix]
      rfl
  | cons c s ih =>
      have hs : '<' ∉ s := fun hin => h (List.mem_cons_of_mem _ hin)
      have hprefix : ¬ "/<0;1>/*".toList.isPrefixOf (c :: (s ++ ("/<0;1>/*".toList ++ rest))) =
          true := by
        rw [hpattern]
        intro hp
        rw [List.isPrefixOf_iff_prefix, List.cons_prefix_cons] at hp
        -- the second character of the pattern is not where it would have to be
        cases s with
        | nil =>
            rw [List.nil_append, List.cons_append, List.cons_prefix_cons] at hp
            exact absurd hp.2.1 (by decide)
        | cons d s =>
            rw [List.cons_append, List.cons_prefix_cons] at hp
            exact hs (hp.2.1 ▸ List.mem_cons_self ..)
      rw [List.cons_append, splitFrom, if_neg hprefix, ih hs]

/-- Parts that each end in the pattern, and a last one. -/
theorem splitFrom_parts {parts : List (List Char)} {last : List Char}
    (hparts : ∀ part ∈ parts, '<' ∉ part) (hlast : '<' ∉ last) :
    splitFrom "/<0;1>/*".toList 0
      (parts.flatMap (fun part => part ++ "/<0;1>/*".toList) ++ last) = parts ++ [last] := by
  induction parts with
  | nil => exact splitFrom_plain hlast
  | cons part parts ih =>
      obtain ⟨hpart, hrest⟩ := List.forall_mem_cons.mp hparts
      rw [List.flatMap_cons, List.append_assoc, List.append_assoc, splitFrom_append _ hpart, ih hrest,
        List.cons_append]

theorem intercalate_parts (sep : List Char) (parts : List (List Char)) (last : List Char) :
    sep.intercalate (parts ++ [last]) = parts.flatMap (fun part => part ++ sep) ++ last := by
  induction parts with
  | nil => simp [List.intercalate]
  | cons part parts ih =>
      have hne : parts ++ [last] ≠ [] := by simp
      obtain ⟨x, xs, hxs⟩ := List.exists_cons_of_ne_nil hne
      rw [hxs] at ih
      rw [List.cons_append, hxs, List.intercalate_cons_cons, ih, List.flatMap_cons]
      simp only [List.append_assoc]

section Multipath

variable {env} {p : Policy} {accounts : List Account}

/-- The text of a descriptor up to the branch of each of its keys. -/
def bodyParts (env : DescriptorEnv State Wallet Scan) (p : Policy) (accounts : List Account) :
    List (List Char) :=
  match p, accounts with
  | .singleSig, [a] => ["wpkh(".toList ++ (accountText env.toCrates a).toList]
  | .twoOfThree, [a, b, c] =>
      ["wsh(sortedmulti(2,".toList ++ (accountText env.toCrates a).toList,
        ",".toList ++ (accountText env.toCrates b).toList,
        ",".toList ++ (accountText env.toCrates c).toList]
  | _, _ => []

def bodyEnd : Policy → List Char
  | .singleSig => ")".toList
  | .twoOfThree => "))".toList

theorem bodyText_parts (hlength : accounts.length = keyCount p) (branch : String) :
    (bodyText p (accounts.map (keyText env.toCrates branch))).toList =
      (bodyParts env p accounts).flatMap
        (fun part => part ++ ("/" ++ branch ++ "/*").toList) ++ bodyEnd p := by
  cases p with
  | singleSig =>
      obtain ⟨a, rfl⟩ := List.length_eq_one_iff.mp hlength
      show ("wpkh(" ++ keyText env.toCrates branch a ++ ")").toList = _
      simp [bodyParts, bodyEnd, keyText]
  | twoOfThree =>
      obtain ⟨a, b, c, rfl⟩ := List.length_eq_three.mp hlength
      show ("wsh(sortedmulti(2," ++ (keyText env.toCrates branch a ++ "," ++
        keyText env.toCrates branch b ++ "," ++ keyText env.toCrates branch c) ++ "))").toList = _
      simp [bodyParts, bodyEnd, keyText]

theorem accountText_plain (a : Account) {d : Char} (hd : d.isAlphanum = false)
    (hne : d ∉ ['[', ']', '/', '\'']) : d ∉ (accountText env.toCrates a).toList := by
  simp only [List.mem_cons, List.not_mem_nil, or_false, not_or] at hne
  obtain ⟨hopen, hclose, hslash, hmark⟩ := hne
  rw [toList_accountText]
  simp only [List.mem_cons, List.mem_append, not_or]
  exact ⟨hopen, displayKeySource_ne env _ hd hslash hmark, hclose, displayXpub_ne env _ hd⟩

theorem length_bodyParts (hlength : accounts.length = keyCount p) :
    (bodyParts env p accounts).length = keyCount p := by
  cases p with
  | singleSig =>
      obtain ⟨a, rfl⟩ := List.length_eq_one_iff.mp hlength
      rfl
  | twoOfThree =>
      obtain ⟨a, b, c, rfl⟩ := List.length_eq_three.mp hlength
      rfl

/-- A multipath descriptor stands for the descriptors of its two branches. -/
theorem multipathPair_describe {row : String} (hlength : accounts.length = keyCount p)
    (h : parsePublic env.toEnv row =
      .ok (describe p (accounts.map (multipathKey env.toCrates)))) :
    multipathPair env.toEnv row = .ok (describe p (accounts.map (accountKey .external)),
      describe p (accounts.map (accountKey .internal))) := by
  have hbody := env.descriptorBody_multipath p accounts hlength
  have hplain : ∀ part ∈ bodyParts env p accounts, '<' ∉ part := by
    have htext : ∀ a : Account, '<' ∉ (accountText env.toCrates a).toList :=
      fun a => accountText_plain a (by decide) (by decide)
    cases p with
    | singleSig =>
        obtain ⟨a, rfl⟩ := List.length_eq_one_iff.mp hlength
        simp [bodyParts, htext]
    | twoOfThree =>
        obtain ⟨a, b, c, rfl⟩ := List.length_eq_three.mp hlength
        simp [bodyParts, htext]
  have hend : '<' ∉ bodyEnd p := by cases p <;> decide
  have hparts : splitFrom "/<0;1>/*".toList 0
      (env.descriptorBody (describe p (accounts.map (multipathKey env.toCrates)))).toList =
      bodyParts env p accounts ++ [bodyEnd p] := by
    rw [hbody, bodyText_parts hlength]
    exact splitFrom_parts hplain hend
  have hcount : (bodyParts env p accounts ++ [bodyEnd p]).length - 1 =
      (describe p (accounts.map (multipathKey env.toCrates))).keys.length ∧
      (describe p (accounts.map (multipathKey env.toCrates))).keys.length ≠ 0 := by
    rw [describe_keys, List.length_map, hlength, List.length_append, length_bodyParts hlength]
    cases p <;> decide
  have hbranch : ∀ k : KeychainKind, String.ofList (("/" ++ k.branchText ++ "/*").toList.intercalate
      (bodyParts env p accounts ++ [bodyEnd p])) =
      bodyText p (accounts.map (keyText env.toCrates k.branchText)) := by
    intro k
    rw [intercalate_parts, ← bodyText_parts hlength, String.ofList_toList]
  have hreceive := hbranch .external
  have hchange := hbranch .internal
  rw [multipathPair, h, ok_bind, policy_describe (by rw [List.length_map, hlength]), ok_bind]
  dsimp only
  rw [hparts, require_of hcount, ok_bind]
  have hsep : "/0/*" = "/" ++ KeychainKind.external.branchText ++ "/*" := by decide
  have hsep' : "/1/*" = "/" ++ KeychainKind.internal.branchText ++ "/*" := by decide
  rw [hsep, hsep', hreceive, hchange, env.parseDescriptor_body p accounts .external hlength,
    env.parseDescriptor_body p accounts .internal hlength]
  rfl

end Multipath

end Descriptors
end Tundra
