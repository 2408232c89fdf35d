/-
  Tundra.Writings

  The texts that write one wallet.  Every accepted text writes some accounts,
  and all the texts that write the same accounts have one preview, among them
  the pair and the JSON list of the canonical descriptors.
-/

import Tundra.Identity

namespace Tundra
namespace Descriptors

open Checked

variable {State Wallet Scan : Type}

/-! ## Characters of a descriptor -/

/-- The characters a descriptor of accounts is written with, but for the mark
    before its checksum. -/
def IsBodyChar (c : Char) : Prop := c.isAlphanum = true ∨ c ∈ "()[]/'*,<;>".toList

instance : DecidablePred IsBodyChar := fun c =>
  inferInstanceAs (Decidable (c.isAlphanum = true ∨ c ∈ "()[]/'*,<;>".toList))

def IsTextChar (c : Char) : Prop := IsBodyChar c ∨ c = '#'

instance : DecidablePred IsTextChar := fun c => inferInstanceAs (Decidable (IsBodyChar c ∨ c = '#'))

theorem toNat_of_alphanum {c : Char} (h : c.isAlphanum = true) : 48 ≤ c.toNat ∧ c.toNat ≤ 122 := by
  delta Char.isAlphanum Char.isAlpha Char.isUpper Char.isLower Char.isDigit at h
  simp only [ Bool.or_eq_true, Bool.and_eq_true, decide_eq_true_eq, ge_iff_le, UInt32.le_iff_toNat_le] at h
  change ((65 ≤ c.toNat ∧ c.toNat ≤ 90) ∨ (97 ≤ c.toNat ∧ c.toNat ≤ 122)) ∨
    (48 ≤ c.toNat ∧ c.toNat ≤ 57) at h
  omega

theorem IsTextChar.toNat {c : Char} (h : IsTextChar c) : 33 ≤ c.toNat ∧ c.toNat ≤ 122 := by
  rcases h with (h | h) | rfl
  · have hbounds := toNat_of_alphanum h
    omega
  · have hmarks : "()[]/'*,<;>".toList.Forall (fun c : Char => 33 ≤ c.toNat ∧ c.toNat ≤ 122) := by
      decide
    exact List.forall_iff_forall_mem.mp hmarks c h
  · decide

theorem bodyChars_of_forall {s : String} (h : s.toList.Forall IsBodyChar) :
    ∀ c ∈ s.toList, IsBodyChar c := List.forall_iff_forall_mem.mp h

theorem bodyChars_append {a b : String} (ha : ∀ c ∈ a.toList, IsBodyChar c)
    (hb : ∀ c ∈ b.toList, IsBodyChar c) : ∀ c ∈ (a ++ b).toList, IsBodyChar c := by
  intro c hc
  rw [String.toList_append, List.mem_append] at hc
  exact hc.elim (ha c) (hb c)

/-- Visible ASCII is written as it stands in a JSON text. -/
theorem jsonChar_of_textChar {c : Char} (h : IsTextChar c) : jsonChar c = [c] := by
  have hquote : c ≠ '"' := by
    rintro rfl
    revert h
    decide
  have hslash : c ≠ '\\' := by
    rintro rfl
    revert h
    decide
  obtain ⟨hlow, -⟩ := h.toNat
  have hcontrol : ∀ d : Char, d.toNat < 33 → c ≠ d := by
    rintro d hd rfl
    omega
  rw [jsonChar, if_neg hquote, if_neg hslash, if_neg (hcontrol '\n' (by decide)),
    if_neg (hcontrol '\r' (by decide)), if_neg (hcontrol '\t' (by decide)),
    if_neg (hcontrol '\x08' (by decide)), if_neg (hcontrol '\x0c' (by decide)),
    if_neg (show ¬ c.toNat < 0x20 by omega)]

theorem splitOnce_append {c : Char} {a : List Char} (b : List Char) (h : c ∉ a) :
    splitOnce c (a ++ c :: b) = some (a, b) := by
  induction a with
  | nil => exact if_pos rfl
  | cons x a ih =>
      rw [List.mem_cons, not_or] at h
      obtain ⟨hne, hrest⟩ := h
      rw [List.cons_append, splitOnce, if_neg (Ne.symm hne), ih hrest, Option.map_some]

section Texts

variable {env : DescriptorEnv State Wallet Scan} {p : Policy} {k : KeychainKind}
  {network : Network} {accounts order : List Account}

theorem accountText_chars (a : Account) : ∀ c ∈ (accountText env.toCrates a).toList, IsBodyChar c := by
  intro c hc
  rw [toList_accountText, List.mem_cons, List.mem_append, List.mem_cons] at hc
  rcases hc with rfl | hc | rfl | hc
  · exact .inr (by decide)
  · rcases env.displayKeySource_chars a.origin c hc with h | rfl | rfl
    · exact .inl h
    · exact .inr (by decide)
    · exact .inr (by decide)
  · exact .inr (by decide)
  · exact .inl (env.displayXpub_chars a.xkey c hc)

theorem branchText_chars (k : KeychainKind) : ∀ c ∈ k.branchText.toList, IsBodyChar c := by
  cases k
  · exact bodyChars_of_forall (by decide)
  · exact bodyChars_of_forall (by decide)

theorem keyText_chars {branch : String} (hbranch : ∀ c ∈ branch.toList, IsBodyChar c)
    (a : Account) : ∀ c ∈ (keyText env.toCrates branch a).toList, IsBodyChar c :=
  bodyChars_append (bodyChars_append (bodyChars_append (accountText_chars a)
    (bodyChars_of_forall (by decide))) hbranch) (bodyChars_of_forall (by decide))

variable (env) in
theorem bodyText_chars {branch : String} (hbranch : ∀ c ∈ branch.toList, IsBodyChar c)
    (hlength : accounts.length = keyCount p) :
    ∀ c ∈ (bodyText p (accounts.map (keyText env.toCrates branch))).toList, IsBodyChar c := by
  have hkey : ∀ a, ∀ c ∈ (keyText env.toCrates branch a).toList, IsBodyChar c :=
    keyText_chars hbranch
  cases p with
  | singleSig =>
      obtain ⟨a, rfl⟩ := List.length_eq_one_iff.mp hlength
      exact bodyChars_append (bodyChars_append (bodyChars_of_forall (by decide)) (hkey a))
        (bodyChars_of_forall (by decide))
  | twoOfThree =>
      obtain ⟨a, b, c, rfl⟩ := List.length_eq_three.mp hlength
      have hcomma : ∀ c ∈ ",".toList, IsBodyChar c := bodyChars_of_forall (by decide)
      have hkeys := bodyChars_append (bodyChars_append (bodyChars_append (bodyChars_append
        (hkey a) hcomma) (hkey b)) hcomma) (hkey c)
      exact bodyChars_append (bodyChars_append (bodyChars_of_forall (by decide)) hkeys)
        (bodyChars_of_forall (by decide))

/-- The longest key of an account: 255 steps below a fingerprint. -/
theorem length_keyText (h : AccountsOk env network accounts) {branch : String}
    (hbranch : branch.length ≤ 5) :
    ∀ a ∈ accounts, (keyText env.toCrates branch a).length ≤ 3238 := by
  intro a ha
  have hdepth := env.xpubInfo_depth a.xkey
  have hsource := env.displayKeySource_length a.origin
  have hxpub := env.displayXpub_length a.xkey a.size
  rw [h.depth a ha] at hdepth
  simp only [keyText, accountText, String.length_append]
  have hopen : "[".length = 1 := by decide
  have hclose : "]".length = 1 := by decide
  have hslash : "/".length = 1 := by decide
  have hstar : "/*".length = 2 := by decide
  omega

theorem length_bodyText (h : AccountsOk env network accounts) (hlength : accounts.length = keyCount p)
    {branch : String} (hbranch : branch.length ≤ 5) :
    (bodyText p (accounts.map (keyText env.toCrates branch))).length ≤ 9736 := by
  have hkeys := length_keyText h hbranch
  cases p with
  | singleSig =>
      obtain ⟨a, rfl⟩ := List.length_eq_one_iff.mp hlength
      have ha := hkeys a (by simp)
      show ("wpkh(" ++ keyText env.toCrates branch a ++ ")").length ≤ 9736
      have hhead : "wpkh(".length = 5 := by decide
      have htail : ")".length = 1 := by decide
      simp only [String.length_append]
      omega
  | twoOfThree =>
      obtain ⟨a, b, c, rfl⟩ := List.length_eq_three.mp hlength
      have ha := hkeys a (by simp)
      have hb := hkeys b (by simp)
      have hc := hkeys c (by simp)
      show ("wsh(sortedmulti(2," ++ (keyText env.toCrates branch a ++ "," ++
        keyText env.toCrates branch b ++ "," ++ keyText env.toCrates branch c) ++
        "))").length ≤ 9736
      have hhead : "wsh(sortedmulti(2,".length = 18 := by decide
      have hcomma : ",".length = 1 := by decide
      have htail : "))".length = 2 := by decide
      simp only [String.length_append]
      omega

/-! ## Descriptors with their checksum -/

/-- What the importer asks of the text of a descriptor. -/
structure DescriptorText (s : String) : Prop where
  checksummed : Checksummed s
  chars : ∀ c ∈ s.toList, IsTextChar c
  head : s.toList.head? ≠ some '\x7b'
  size : s.utf8ByteSize ≤ 9745

/-- It holds of accounts on a branch, or on both, with a checksum. -/
theorem descriptorText_body (h : AccountsOk env network accounts)
    (hlength : accounts.length = keyCount p) {branch sum : String}
    (hbranch : ∀ c ∈ branch.toList, IsBodyChar c) (hfive : branch.length ≤ 5)
    (hsum : sum.length = 8) (hsumChars : ∀ c ∈ sum.toList, c.isAlphanum = true) :
    DescriptorText (bodyText p (accounts.map (keyText env.toCrates branch)) ++ "#" ++ sum) := by
  have hbody := bodyText_chars env hbranch hlength
  have hbodyLength := length_bodyText h hlength hfive
  generalize bodyText p (accounts.map (keyText env.toCrates branch)) = body at hbody hbodyLength ⊢
  have hmark : ∀ {s : String}, (∀ c ∈ s.toList, IsBodyChar c) → '#' ∉ s.toList :=
    fun hs hin => absurd (hs '#' hin) (by decide)
  have hsumBody : ∀ c ∈ sum.toList, IsBodyChar c := fun c hc => .inl (hsumChars c hc)
  have htoList : (body ++ "#" ++ sum).toList = body.toList ++ '#' :: sum.toList := by simp
  have hchars : ∀ c ∈ (body ++ "#" ++ sum).toList, IsTextChar c := by
    intro c hc
    rw [htoList, List.mem_append, List.mem_cons] at hc
    rcases hc with hc | rfl | hc
    · exact .inl (hbody c hc)
    · exact .inr rfl
    · exact .inl (hsumBody c hc)
  have hascii : ∀ c ∈ (body ++ "#" ++ sum).toList, c.val < 128 := by
    intro c hc
    have hbounds := (hchars c hc).toNat
    exact UInt32.lt_iff_toNat_lt.mpr (show c.toNat < 128 by omega)
  have hsize : (body ++ "#" ++ sum).utf8ByteSize ≤ 9745 := by
    have hhash : "#".length = 1 := by decide
    rw [utf8ByteSize_of_ascii hascii, String.length_append, String.length_append]
    omega
  refine ⟨⟨⟨?_, hascii, ?_⟩, hsize.trans (by decide), ⟨body.toList, sum.toList, ?_, ?_⟩, ?_⟩, hchars, ?_,
    hsize⟩
  · intro hempty
    rw [hempty] at htoList
    exact List.append_ne_nil_of_right_ne_nil _ (List.cons_ne_nil _ _) htoList.symm
  · exact fun c hc => isWhitespace_of_visible (hchars c hc).toNat
  · rw [htoList, splitOnce_append _ (hmark hbody)]
  · rw [String.length_toList, hsum]
  · rw [htoList, List.count_append, List.count_cons_self, List.count_eq_zero_of_not_mem (hmark hbody),
      List.count_eq_zero_of_not_mem (hmark hsumBody)]
  · intro hhead
    exact absurd (hchars _ (List.mem_of_mem_head? hhead)) (by decide)

/-! ## Canonical descriptors -/

variable (env k) in
/-- A canonical text is the descriptor of the accounts in some order, and is
    read back as that. -/
theorem canonicalText_order (hlength : accounts.length = keyCount p) :
    ∃ order : List Account, order.Perm accounts ∧
      canonicalText env p k accounts = env.displayDescriptor (describe p (order.map (accountKey k))) ∧
      env.parseDescriptor (canonicalText env p k accounts) =
        some (describe p (order.map (accountKey k))) := by
  obtain ⟨order, hperm, hcanonical⟩ := canonical_order env k hlength
  have hlength' : order.length = keyCount p := hperm.length_eq.trans hlength
  refine ⟨order, hperm, by rw [canonicalText, hcanonical], ?_⟩
  rw [canonicalText, hcanonical, env.parseDescriptor_display p order k hlength']

theorem canonicalText_text (h : AccountsOk env network accounts)
    (hlength : accounts.length = keyCount p) : DescriptorText (canonicalText env p k accounts) := by
  obtain ⟨order, hperm, htext, -⟩ := canonicalText_order env k hlength
  have hlength' : order.length = keyCount p := hperm.length_eq.trans hlength
  obtain ⟨sum, hsum, hsumChars, hdisplay⟩ := env.displayDescriptor_body p order k hlength'
  have hone : k.branchText.length ≤ 5 := by cases k <;> decide
  rw [htext, hdisplay]
  exact descriptorText_body (h.perm env hperm.symm) hlength' (branchText_chars k) hone hsum hsumChars

end Texts

/-! ## The texts of a wallet -/

/-- The text writes the accounts of a policy: it has one of the four shapes, and
    its sides are the receive and change descriptors of the accounts, each in an
    order of its own. -/
structure Writes (env : DescriptorEnv State Wallet Scan) (network : Network) (p : Policy)
    (accounts : List Account) (input : String) : Prop where
  length : accounts.length = keyCount p
  written : ∃ (rows : List String) (order order' : List Account), Shape env network input rows ∧
    order.Perm accounts ∧ order'.Perm accounts ∧ descriptorPair env.toEnv rows =
      .ok (describe p (order.map (accountKey .external)), describe p (order'.map (accountKey .internal)))

section Writings

variable {env : DescriptorEnv State Wallet Scan} {p p' : Policy} {network network' : Network}
  {accounts accounts' order : List Account} {input input' : String} {preview preview' : ImportPreview}

theorem previewImport_eq_ok : previewImport env.toEnv input network = .ok preview ↔
    ∃ rows receive change, Shape env network input rows ∧
      descriptorPair env.toEnv rows = .ok (receive, change) ∧
      previewPair env.toEnv receive change network = .ok preview := by
  simp only [previewImport, bind_eq_ok, Prod.exists, inputDescriptors_eq_ok]
  exact exists_congr fun rows => ⟨fun ⟨hrows, r, c, hpair, h⟩ => ⟨r, c, hrows, hpair, h⟩,
    fun ⟨r, c, hrows, hpair, h⟩ => ⟨hrows, r, c, hpair, h⟩⟩

/-- The importer's parser is the only source of descriptor pairs. -/
theorem descriptorPair_xpub {rows : List String} {receive change : PublicDescriptor}
    (h : descriptorPair env.toEnv rows = .ok (receive, change)) :
    (∀ x, .xpub x ∈ receive.keys → x.xkey.length = 78) ∧
      ∀ x, .xpub x ∈ change.keys → x.xkey.length = 78 := by
  match rows with
  | [] => cases h
  | [row] =>
      simp only [descriptorPair, multipathPair, bind_eq_ok, okOr_eq_ok, require_eq_ok, exists_unit,
        Except.ok.injEq, Prod.mk.injEq] at h
      obtain ⟨d, -, p, -, -, r, hr, c, hc, rfl, rfl⟩ := h
      exact ⟨env.parseDescriptor_xpub _ _ hr, env.parseDescriptor_xpub _ _ hc⟩
  | receiveRow :: changeRow :: rest =>
      simp only [descriptorPair, parsePublic, bind_eq_ok, okOr_eq_ok, require_eq_ok, exists_unit,
        Except.ok.injEq, Prod.mk.injEq, Prod.exists] at h
      obtain ⟨r, ⟨-, body, sum, -, -, hr⟩, c, ⟨-, body', sum', -, -, hc⟩, rfl, rfl⟩ := h
      exact ⟨env.parseDescriptor_xpub _ _ hr, env.parseDescriptor_xpub _ _ hc⟩

theorem accountKey_injective (k : KeychainKind) : Function.Injective (accountKey k) := by
  rintro ⟨origin, xkey, size, hasPath⟩ ⟨origin', xkey', size', hasPath'⟩ h
  simp only [accountKey, DescriptorPublicKey.xpub.injEq, DescriptorXKey.mk.injEq,
    Option.some.injEq] at h
  obtain ⟨rfl, rfl, -⟩ := h
  rfl

/-- Descriptors of accounts are equal only for one policy and one order. -/
theorem describe_accounts_inj {k : KeychainKind} (hlength : accounts.length = keyCount p)
    (h : describe p (accounts.map (accountKey k)) = describe p' (accounts'.map (accountKey k)))
    (hlength' : accounts'.length = keyCount p') : p = p' ∧ accounts = accounts' := by
  have hcount : (accounts.map (accountKey k)).length = keyCount p := by simpa using hlength
  have hpolicy := policy_describe hcount
  rw [h, policy_describe (by simpa using hlength'), Except.ok.injEq] at hpolicy
  have hkeys := congrArg PublicDescriptor.keys h
  rw [describe_keys, describe_keys] at hkeys
  exact ⟨hpolicy.symm, (List.map_injective_iff.mpr (accountKey_injective k)) hkeys⟩

/-- An accepted text writes accounts. -/
theorem writes_of_preview (h : previewImport env.toEnv input network = .ok preview) :
    ∃ accounts, Writes env network preview.policy accounts input ∧
      Previewed env network accounts preview := by
  obtain ⟨rows, receive, change, hshape, hpair, h⟩ := previewImport_eq_ok.mp h
  obtain ⟨hreceive, hchange⟩ := descriptorPair_xpub hpair
  obtain ⟨accounts, order, hperm, rfl, rfl, hpreviewed⟩ := (previewPair_eq_ok hreceive hchange).mp h
  exact ⟨accounts, ⟨hpreviewed.length, rows, accounts, order, hshape, .refl _, hperm.symm, hpair⟩,
    hpreviewed⟩

/-- The preview of a text is that of the accounts it writes. -/
theorem Writes.preview_iff (h : Writes env network p accounts input) :
    previewImport env.toEnv input network = .ok preview ↔
      preview.policy = p ∧ Previewed env network accounts preview := by
  obtain ⟨hlength, rows, order, order', hshape, horder, horder', hpair⟩ := h
  obtain ⟨hreceive, hchange⟩ := descriptorPair_xpub hpair
  constructor
  · intro hpreview
    obtain ⟨rows', receive, change, hshape', hpair', hpreview⟩ := previewImport_eq_ok.mp hpreview
    have hrows : rows' = rows := by
      have hread := inputDescriptors_eq_ok.mpr hshape'
      rw [inputDescriptors_eq_ok.mpr hshape, Except.ok.injEq] at hread
      exact hread.symm
    rw [hrows, hpair, Except.ok.injEq, Prod.mk.injEq] at hpair'
    obtain ⟨rfl, rfl⟩ := hpair'
    obtain ⟨found, found', -, hfound, -, hpreviewed⟩ :=
      (previewPair_eq_ok hreceive hchange).mp hpreview
    obtain ⟨rfl, rfl⟩ := describe_accounts_inj (horder.length_eq.trans hlength) hfound hpreviewed.length
    exact ⟨rfl, hpreviewed.perm horder⟩
  · rintro ⟨rfl, hpreviewed⟩
    refine previewImport_eq_ok.mpr ⟨rows, _, _, hshape, hpair, ?_⟩
    exact (previewPair_eq_ok hreceive hchange).mpr
      ⟨order, order', horder.trans horder'.symm, rfl, rfl, hpreviewed.perm horder.symm⟩

/-- Two writings of one wallet have one preview. -/
theorem Writes.same (h : Writes env network p accounts input)
    (h' : Writes env network p accounts input') :
    previewImport env.toEnv input network = .ok preview ↔
      previewImport env.toEnv input' network = .ok preview := h.preview_iff.trans h'.preview_iff.symm

/-- A text that holds the multipath descriptor of accounts writes them. -/
theorem writes_multipath {row : String} (hlength : accounts.length = keyCount p)
    (hrow : Shape env network input [row])
    (hparse : parsePublic env.toEnv row =
      .ok (describe p (accounts.map (multipathKey env.toCrates)))) :
    Writes env network p accounts input :=
  ⟨hlength, [row], accounts, accounts, hrow, .refl _, .refl _,
    multipathPair_describe hlength hparse⟩

/-- A text that holds a receive and a change descriptor of accounts writes them. -/
theorem writes_pair {receive change : String} {order' : List Account}
    (hlength : accounts.length = keyCount p) (hrows : Shape env network input [receive, change])
    (horder : order.Perm accounts) (horder' : order'.Perm accounts)
    (hreceive : parsePublic env.toEnv receive = .ok (describe p (order.map (accountKey .external))))
    (hchange : parsePublic env.toEnv change =
      .ok (describe p (order'.map (accountKey .internal)))) :
    Writes env network p accounts input := by
  refine ⟨hlength, [receive, change], order, order', hrows, horder, horder', ?_⟩
  rw [descriptorPair, hreceive, ok_bind, hchange, ok_bind]

/-! ## One id, one wallet -/

/-- Canonical descriptors tell policies and sets of accounts apart. -/
theorem canonicalText_injective {k : KeychainKind} (hlength : accounts.length = keyCount p)
    (hlength' : accounts'.length = keyCount p')
    (h : canonicalText env p k accounts = canonicalText env p' k accounts') :
    p = p' ∧ accounts.Perm accounts' := by
  obtain ⟨order, hperm, -, hparse⟩ := canonicalText_order env k hlength
  obtain ⟨order', hperm', -, hparse'⟩ := canonicalText_order env k hlength'
  rw [h, hparse', Option.some.injEq] at hparse
  obtain ⟨rfl, rfl⟩ := describe_accounts_inj (hperm'.length_eq.trans hlength') hparse
    (hperm.length_eq.trans hlength)
  exact ⟨rfl, hperm.symm.trans hperm'⟩

theorem network_key_plain (network : Network) : ':' ∉ network.key.toList := by
  cases network <;> decide

theorem network_key_injective : Function.Injective Network.key := by
  intro n n' h
  have hparse := Network.parse_key n
  rw [h, Network.parse_key, Except.ok.injEq] at hparse
  exact hparse.symm

/-- The parts before and after the first separator. -/
theorem split_inj {c : Char} {a a' b b' : List Char} (ha : c ∉ a) (ha' : c ∉ a')
    (h : a ++ c :: b = a' ++ c :: b') : a = a' ∧ b = b' := by
  have hsplit := splitOnce_append b ha
  rw [h, splitOnce_append b' ha', Option.some.injEq, Prod.mk.injEq] at hsplit
  exact ⟨hsplit.1.symm, hsplit.2.symm⟩

/-- The parts of what an id is the hash of. -/
theorem encoding_injective {receive receive' change change' : String}
    (hreceive : ':' ∉ receive.toList) (hreceive' : ':' ∉ receive'.toList)
    (h : encoding network receive change = encoding network' receive' change') :
    network = network' ∧ receive = receive' ∧ change = change' := by
  have htoList : ∀ (n : Network) (r c : String), (encoding n r c).toList =
      "tundra:v1:".toList ++ (n.key.toList ++ ':' :: (r.toList ++ ':' :: c.toList)) := by
    intro n r c
    simp [encoding]
  have hchars := congrArg String.toList h
  rw [htoList, htoList, List.append_cancel_left_eq] at hchars
  obtain ⟨hkey, hchars⟩ := split_inj (network_key_plain _) (network_key_plain _) hchars
  obtain ⟨hr, hc⟩ := split_inj hreceive hreceive' hchars
  exact ⟨network_key_injective (String.toList_inj.mp hkey), String.toList_inj.mp hr,
    String.toList_inj.mp hc⟩

end Writings

/-- A wallet's identity: how a wallet is written does not change what is
    imported, and what is imported tells wallets apart. -/
structure DescriptorIdentity (env : DescriptorEnv State Wallet Scan) : Prop where
  /-- Every accepted text writes a list of accounts. -/
  covered : ∀ input network preview, previewImport env.toEnv input network = .ok preview →
    ∃ accounts, Writes env network preview.policy accounts input
  /-- Each row of one multipath descriptor writes its accounts. -/
  multipath : ∀ input network p accounts row, accounts.length = keyCount p →
    Shape env network input [row] →
    parsePublic env.toEnv row = .ok (describe p (accounts.map (multipathKey env.toCrates))) →
    Writes env network p accounts input
  /-- So does a pair of descriptors, with the keys of each in any order. -/
  pair : ∀ input network p (accounts order order' : List Account) receive change,
    accounts.length = keyCount p →
    Shape env network input [receive, change] → order.Perm accounts → order'.Perm accounts →
    parsePublic env.toEnv receive = .ok (describe p (order.map (accountKey .external))) →
    parsePublic env.toEnv change = .ok (describe p (order'.map (accountKey .internal))) →
    Writes env network p accounts input
  /-- All the texts that write one list of accounts have one preview. -/
  same : ∀ input input' network p accounts preview, Writes env network p accounts input →
    Writes env network p accounts input' →
    previewImport env.toEnv input network = .ok preview →
    previewImport env.toEnv input' network = .ok preview
  /-- Two accepted texts with one id write the same accounts on one network, as
      far as the hash tells their encodings apart. -/
  distinct : ∀ input input' network network' p p' accounts accounts' preview preview',
    Writes env network p accounts input → Writes env network' p' accounts' input' →
    previewImport env.toEnv input network = .ok preview →
    previewImport env.toEnv input' network' = .ok preview' →
    (env.sha256Hex (encoding network preview.receiveDescriptor preview.changeDescriptor) =
        env.sha256Hex (encoding network' preview'.receiveDescriptor preview'.changeDescriptor) →
      encoding network preview.receiveDescriptor preview.changeDescriptor =
        encoding network' preview'.receiveDescriptor preview'.changeDescriptor) →
    preview.id = preview'.id → network = network' ∧ p = p' ∧ accounts.Perm accounts'

/-! ## The canonical pair -/

section Canonical

variable {env : DescriptorEnv State Wallet Scan} {network : Network} {accounts : List Account}
  {input : String} {preview : ImportPreview}

variable (env network) in
/-- The JSON list of two canonical texts. -/
theorem inputDescriptors_list {receive change : String} (hreceive : DescriptorText receive)
    (hchange : DescriptorText change) :
    (env.descriptorPairJson receive change).utf8ByteSize ≤ maxDescriptorBytes ∧
      inputDescriptors env.toEnv (env.descriptorPairJson receive change) network =
        .ok [receive, change] := by
  have hplain : ∀ s : String, DescriptorText s → ∀ c ∈ s.toList, c.val < 128 ∧ jsonChar c = [c] :=
    fun s hs c hc => ⟨hs.checksummed.ascii c hc, jsonChar_of_textChar (hs.chars c hc)⟩
  obtain ⟨htext, hparse⟩ := env.descriptorPairJson_eq receive change (hplain _ hreceive)
    (hplain _ hchange)
  have hsize : (env.descriptorPairJson receive change).utf8ByteSize ≤ maxDescriptorBytes := by
    have hr := hreceive.size
    have hc := hchange.size
    have hhead : "\x7b\"descriptors\":[\x7b\"desc\":\"".utf8ByteSize = 25 := by decide
    have hmiddle : "\",\"internal\":false\x7d,\x7b\"desc\":\"".utf8ByteSize = 29 := by decide
    have hend : "\",\"internal\":true\x7d]\x7d".utf8ByteSize = 20 := by decide
    simp only [htext, String.utf8ByteSize_append, hhead, hmiddle, hend, maxDescriptorBytes]
    omega
  refine ⟨hsize, ?_⟩
  obtain ⟨rest, hchars⟩ : ∃ rest, (env.descriptorPairJson receive change).toList = '\x7b' :: rest :=
    ⟨_, by rw [htext]; simp only [String.toList_append, List.append_assoc]; rfl⟩
  have htrim : trim (env.descriptorPairJson receive change) =
      env.descriptorPairJson receive change := by
    refine trim_of_ends (fun c hc => ?_) (fun c hc => ?_)
    · rw [hchars, List.head?_cons, Option.some.injEq] at hc
      subst hc
      decide
    · have hend : "\",\"internal\":true\x7d]\x7d".toList ≠ [] := by decide
      rw [htext, String.toList_append, List.getLast?_append_of_ne_nil _ hend] at hc
      have hlast : "\",\"internal\":true\x7d]\x7d".toList.getLast? = some '\x7d' := by decide
      rw [hlast, Option.some.injEq] at hc
      subst hc
      decide
  rw [inputDescriptors_json env.toEnv network hsize htrim hchars hparse, jsonDescriptors_list]

variable (env network) in
/-- The two lines of two canonical texts. -/
theorem inputDescriptors_lines {receive change : String} (hreceive : DescriptorText receive)
    (hchange : DescriptorText change) :
    (receive ++ "\n" ++ change).utf8ByteSize ≤ maxDescriptorBytes ∧
      inputDescriptors env.toEnv (receive ++ "\n" ++ change) network = .ok [receive, change] := by
  have hsize : (receive ++ "\n" ++ change).utf8ByteSize ≤ maxDescriptorBytes := by
    have hr := hreceive.size
    have hc := hchange.size
    have hnewline : "\n".utf8ByteSize = 1 := by decide
    simp only [String.utf8ByteSize_append, hnewline, maxDescriptorBytes]
    omega
  exact ⟨hsize, inputDescriptors_pair env.toEnv network hreceive.checksummed.toOneWord
    hchange.checksummed.toOneWord hreceive.head hsize⟩

/-- A text with the canonical pair of accounts writes them. -/
theorem writes_canonical (h : Previewed env network accounts preview)
    (hrows : inputDescriptors env.toEnv input network =
      .ok [preview.receiveDescriptor, preview.changeDescriptor]) :
    Writes env network preview.policy accounts input := by
  have hcanonical : ∀ k, parsePublic env.toEnv (canonicalText env preview.policy k accounts) =
      okOr (env.parseDescriptor (canonicalText env preview.policy k accounts)) .descriptor :=
    fun k => parsePublic_checksummed env.toEnv (canonicalText_text h.ok h.length).checksummed
  obtain ⟨order, hperm, -, hparse⟩ := canonicalText_order env .external h.length
  obtain ⟨order', hperm', -, hparse'⟩ := canonicalText_order env .internal h.length
  refine writes_pair h.length (inputDescriptors_eq_ok.mp hrows) hperm hperm' ?_ ?_
  · rw [h.receive, hcanonical, hparse, okOr_some]
  · rw [h.change, hcanonical, hparse', okOr_some]

/-- The canonical descriptors of an accepted text fit every limit, and are
    imported again, as two lines or as a JSON list, with the same preview. -/
theorem canonical_pair_reimported (h : previewImport env.toEnv input network = .ok preview) :
    preview.receiveDescriptor.utf8ByteSize ≤ 16384 ∧
    preview.changeDescriptor.utf8ByteSize ≤ 16384 ∧
    (preview.receiveDescriptor ++ "\n" ++ preview.changeDescriptor).utf8ByteSize ≤
      maxDescriptorBytes ∧
    (env.descriptorPairJson preview.receiveDescriptor preview.changeDescriptor).utf8ByteSize ≤
      maxDescriptorBytes ∧
    previewImport env.toEnv (preview.receiveDescriptor ++ "\n" ++ preview.changeDescriptor) network =
      .ok preview ∧
    previewImport env.toEnv
      (env.descriptorPairJson preview.receiveDescriptor preview.changeDescriptor) network =
        .ok preview := by
  obtain ⟨accounts, hwrites, hpreviewed⟩ := writes_of_preview h
  have hreceive : DescriptorText preview.receiveDescriptor := by
    rw [hpreviewed.receive]
    exact canonicalText_text hpreviewed.ok hpreviewed.length
  have hchange : DescriptorText preview.changeDescriptor := by
    rw [hpreviewed.change]
    exact canonicalText_text hpreviewed.ok hpreviewed.length
  obtain ⟨hlines, hlineRows⟩ := inputDescriptors_lines env network hreceive hchange
  obtain ⟨hlist, hlistRows⟩ := inputDescriptors_list env network hreceive hchange
  refine ⟨hreceive.size.trans (by decide), hchange.size.trans (by decide), hlines, hlist, ?_, ?_⟩
  · exact (writes_canonical hpreviewed hlineRows).preview_iff.mpr ⟨rfl, hpreviewed⟩
  · exact (writes_canonical hpreviewed hlistRows).preview_iff.mpr ⟨rfl, hpreviewed⟩

end Canonical

end Descriptors
end Tundra
