import Scoopdope.Nft.Contract
import Scoopdope.Soroban.History

/-!
# Course NFTs: the owner of an NFT

The three places where the owner of an NFT is stored agree (`Indexed`): the metadata
names the owner, and the lists of the owners are a listing of the ownership relation,
which a transfer changes by taking the id out of one list and appending it to another,
or to the same one. A mint takes the first number that is not in use, so a listed id is
never listed again, and what is stored at the mint for the royalties is never written
again (`ownership_indexed`).
-/

namespace Scoopdope.Nft

open Soroban

variable {Address : Type} [DecidableEq Address]

/-- The id a call mints. -/
def mintedId (s : Storage Address) (i : Env Address × Call Address) : Option U32 :=
  match i.2 with
  | .mintCourseNft admin owner courseId courseName instructor purchasePrice royaltyBasis =>
    match mintCourseNft i.1 s admin owner courseId courseName instructor purchasePrice
      royaltyBasis with
    | .ok (id, _) => some id
    | .error _ => none
  | _ => none

theorem mintedId_of_error {s : Storage Address} {i : Env Address × Call Address} {t : Trap}
    (h : exec s i = .error t) : mintedId s i = none := by
  obtain ⟨env, call⟩ := i
  cases call with
  | mintCourseNft admin owner courseId courseName instructor purchasePrice royaltyBasis =>
    cases hc : mintCourseNft env s admin owner courseId courseName instructor purchasePrice
        royaltyBasis with
    | error t' => simp only [mintedId, hc]
    | ok p =>
      simp only [exec, hc] at h
      cases h
  | initializeContract admin => rfl
  | transferNft from_ to_ id => rfl
  | grantAccess nftOwner id holder => rfl
  | revokeAccess nftOwner id holder => rfl

/-- Some accepted mint of the run returned the id. -/
def Minted (s₀ : Storage Address) (past : List (Env Address × Call Address)) (id : U32) : Prop :=
  Occurs (fun earlier i => mintedId (after exec s₀ earlier) i = some id) past

/-- The numbers below the next id are in use, and the copies of the owner agree. -/
structure Indexed (s : Storage Address) : Prop where
  admin : s.admin.isSome
  inUse : ∀ id, (getNftOwner s id).isSome ↔ id.val < (nextNFTId s).val
  metadata : ∀ id owner, getNftOwner s id = some owner →
    ∃ metadata, getNftMetadata s id = some metadata ∧ metadata.owner = owner
  listed : Listing (getOwnerNfts s) fun owner id => getNftOwner s id = some owner

section Steps

variable {s s' : Storage Address} {env : Env Address}

omit [DecidableEq Address] in
theorem getNftOwner_set {id : U32} {owner : Address}
    (h : s'.nftOwner = s.nftOwner.set id owner) (n : U32) :
    getNftOwner s' n = if n = id then some owner else getNftOwner s n := by
  unfold getNftOwner
  rw [h, Table.get_set]

/-- The owner and the metadata of an id are written together. -/
theorem Indexed.metadata_set (hs : Indexed s) {id : U32} {owner : Address}
    {metadata : NFTMetadata Address} (howner : s'.nftOwner = s.nftOwner.set id owner)
    (hmetadata : s'.nftMetadata = s.nftMetadata.set id metadata)
    (hcopy : metadata.owner = owner) (n : U32) (a : Address) (hn : getNftOwner s' n = some a) :
    ∃ metadata', getNftMetadata s' n = some metadata' ∧ metadata'.owner = a := by
  rw [getNftOwner_set howner] at hn
  unfold getNftMetadata
  rw [hmetadata, Table.get_set]
  split at hn
  · next hid =>
    rw [if_pos hid]
    exact ⟨metadata, rfl, hcopy.trans (Option.some.inj hn)⟩
  · next hid =>
    rw [if_neg hid]
    exact hs.metadata n a hn

theorem Indexed.mint (hs : Indexed s) {admin owner instructor : Address}
    {courseId courseName : String} {purchasePrice : I128} {royaltyBasis id : U32}
    (h : mintCourseNft env s admin owner courseId courseName instructor purchasePrice
      royaltyBasis = .ok (id, s')) : Indexed s' := by
  obtain ⟨hid, hnext, hadmin, howner, hmetadata, hlists, _⟩ := mintCourseNft_ok h
  have hfree : getNftOwner s id = none := by
    rw [← Option.not_isSome_iff_eq_none, hs.inUse, hid]
    exact lt_irrefl _
  refine ⟨?_, fun n => ?_, hs.metadata_set howner hmetadata rfl, ?_⟩
  · rw [hadmin]
    exact hs.admin
  · rw [getNftOwner_set howner, hnext]
    split
    · next hn => simp [hn]
    · next hn =>
      have hne : n.val ≠ id.val := fun hval => hn (BoundedInt.ext hval)
      rw [hs.inUse, ← hid]
      omega
  · have hpushed := hs.listed.push (a := owner) (b := id) (by rw [hfree]; exact nofun)
    rw [← hlists] at hpushed
    refine hpushed.congr fun a n => ?_
    rw [getNftOwner_set howner]
    split
    · next hn =>
      subst hn
      simp [hfree, eq_comm]
    · next hn => simp [hn]

theorem Indexed.transfer (hs : Indexed s) {from_ to_ : Address} {id : U32}
    (h : transferNft env s from_ to_ id = .ok s') : Indexed s' := by
  obtain ⟨_, hcurrent, hadmin, howner, ⟨metadata, hget, hmetadata⟩, hlists, hnext, _⟩ :=
    transferNft_ok h
  have howned : getNftOwner s id = some from_ := hcurrent
  refine ⟨?_, fun n => ?_, hs.metadata_set howner hmetadata rfl, ?_⟩
  · rw [hadmin]
    exact hs.admin
  · have hsame : nextNFTId s' = nextNFTId s := by rw [nextNFTId, hnext, nextNFTId]
    rw [getNftOwner_set howner, hsame, ← hs.inUse n]
    split
    · next hn => simp [hn, howned]
    · rfl
  · -- The id is in no list once it is taken out of its owner's.
    have hfree : ¬ (getNftOwner s id = some to_ ∧ ¬ (to_ = from_ ∧ id = id)) := by
      rintro ⟨hto, hne⟩
      rw [howned] at hto
      exact hne ⟨(Option.some.inj hto).symm, rfl⟩
    have hmoved := (hs.listed.drop from_ id).push (a := to_) (b := id) hfree
    rw [← hlists] at hmoved
    refine hmoved.congr fun a n => ?_
    rw [getNftOwner_set howner]
    split
    · next hn =>
      subst hn
      rw [howned]
      simp [eq_comm]
    · next hn => simp [hn]

theorem Indexed.step (hs : Indexed s) {i : Env Address × Call Address} (h : exec s i = .ok s') :
    Indexed s' := by
  obtain ⟨env, call⟩ := i
  cases call with
  | initializeContract admin =>
    obtain ⟨hadmin, _⟩ := initializeContract_ok.mp h
    have hsome := hs.admin
    rw [hadmin] at hsome
    cases hsome
  | mintCourseNft admin owner courseId courseName instructor purchasePrice royaltyBasis =>
    obtain ⟨_, hc⟩ := map_snd_eq_ok.mp h
    exact hs.mint hc
  | transferNft from_ to_ id => exact hs.transfer h
  | grantAccess nftOwner id holder =>
    obtain ⟨_, _, rfl⟩ := grantAccess_ok.mp h
    exact ⟨hs.admin, hs.inUse, hs.metadata, hs.listed⟩
  | revokeAccess nftOwner id holder =>
    obtain ⟨_, _, rfl⟩ := revokeAccess_ok.mp h
    exact ⟨hs.admin, hs.inUse, hs.metadata, hs.listed⟩

/-- The next id after a call, and the royalties of the ids already in use. -/
theorem exec_minted (hs : Indexed s) {i : Env Address × Call Address} (h : exec s i = .ok s') :
    (∀ id : U32, id.val < (nextNFTId s').val ↔
      mintedId s i = some id ∨ id.val < (nextNFTId s).val) ∧
    ∀ id : U32, id.val < (nextNFTId s).val → getRoyaltyInfo s' id = getRoyaltyInfo s id := by
  obtain ⟨env, call⟩ := i
  cases call with
  | initializeContract admin =>
    obtain ⟨hadmin, _⟩ := initializeContract_ok.mp h
    have hsome := hs.admin
    rw [hadmin] at hsome
    cases hsome
  | mintCourseNft admin owner courseId courseName instructor purchasePrice royaltyBasis =>
    obtain ⟨minted, hc⟩ := map_snd_eq_ok.mp h
    have hcall : mintCourseNft env s admin owner courseId courseName instructor purchasePrice
        royaltyBasis = .ok (minted, s') := hc
    obtain ⟨hminted, hnext, _, _, _, _, hbasis, hrecipient, _⟩ := mintCourseNft_ok hc
    have hid : mintedId s (env, .mintCourseNft admin owner courseId courseName instructor
        purchasePrice royaltyBasis) = some minted := by
      simp only [mintedId, hcall]
    refine ⟨fun id => ?_, fun id hlt => ?_⟩
    · rw [hid, hnext, ← hminted, Option.some.injEq, BoundedInt.ext_iff]
      omega
    · have hne : id ≠ minted := by
        rintro rfl
        rw [← hminted] at hlt
        exact lt_irrefl _ hlt
      rw [getRoyaltyInfo, hbasis, hrecipient, Table.get_set_ne hne, Table.get_set_ne hne]
      rfl
  | transferNft from_ to_ id =>
    obtain ⟨_, _, _, _, _, _, hnext, hbasis, hrecipient, _⟩ := transferNft_ok h
    unfold nextNFTId getRoyaltyInfo
    rw [hnext, hbasis, hrecipient]
    exact ⟨fun _ => ⟨.inr, fun hor => hor.resolve_left nofun⟩, fun _ _ => rfl⟩
  | grantAccess nftOwner id holder =>
    obtain ⟨_, _, rfl⟩ := grantAccess_ok.mp h
    exact ⟨fun _ => ⟨.inr, fun hor => hor.resolve_left nofun⟩, fun _ _ => rfl⟩
  | revokeAccess nftOwner id holder =>
    obtain ⟨_, _, rfl⟩ := revokeAccess_ok.mp h
    exact ⟨fun _ => ⟨.inr, fun hor => hor.resolve_left nofun⟩, fun _ _ => rfl⟩

end Steps

/-! ## Runs -/

section Runs

variable {admin : Address} {s₀ : Storage Address} {past : List (Env Address × Call Address)}

theorem Initialised.start (h : Initialised admin s₀) :
    Indexed s₀ ∧ ∀ id : U32, ¬ id.val < (nextNFTId s₀).val := by
  obtain ⟨env, h⟩ := h
  obtain ⟨_, _, rfl⟩ := initializeContract_ok.mp h
  have hnone : ∀ id : U32, ¬ id.val < 0 := fun id => not_lt.mpr id.lo_le
  refine ⟨⟨rfl, fun id => ⟨nofun, fun hlt => absurd hlt (hnone id)⟩, fun _ _ hget => ?_, ?_⟩, hnone⟩
  · exact absurd hget Table.get_empty_ne_some
  · exact Listing.empty fun _ _ => Table.get_empty_ne_some

theorem indexed_after (h : Initialised admin s₀) (past : List (Env Address × Call Address)) :
    Indexed (after exec s₀ past) :=
  after_invariant h.start.1 (fun _ _ _ hs he => hs.step he) past

/-- The ids minted are the numbers below the next id. -/
theorem minted_iff (h : Initialised admin s₀) (past : List (Env Address × Call Address))
    (id : U32) : Minted s₀ past id ↔ id.val < (nextNFTId (after exec s₀ past)).val := by
  unfold Minted
  induction past with
  | nil =>
    refine iff_of_false ?_ (h.start.2 id)
    rintro ⟨i, earlier, hsuf, _⟩
    exact absurd (List.suffix_nil.mp hsuf) (List.cons_ne_nil i earlier)
  | cons i past ih =>
    rw [occurs_cons_iff, ih, after]
    cases he : exec (after exec s₀ past) i with
    | ok s' => rw [apply_ok he, (exec_minted (indexed_after h past) he).1]
    | error t =>
      rw [apply_error he, mintedId_of_error he]
      constructor
      · rintro (hnone | hlt)
        · cases hnone
        · exact hlt
      · exact .inr

/-- What a mint files for the royalties stays. -/
theorem royaltyInfo_kept (h : Initialised admin s₀)
    {earlier : List (Env Address × Call Address)} {i : Env Address × Call Address}
    (hsuf : i :: earlier <:+ past) {id : U32} {s' : Storage Address}
    (he : exec (after exec s₀ earlier) i = .ok s')
    (hid : mintedId (after exec s₀ earlier) i = some id) :
    getRoyaltyInfo (after exec s₀ past) id = getRoyaltyInfo s' id := by
  have hstart : after exec s₀ (i :: earlier) = s' := apply_ok he
  refine (after_kept (P := fun s => id.val < (nextNFTId s).val ∧
    getRoyaltyInfo s id = getRoyaltyInfo s' id) hsuf ?_ ?_).2
  · rw [hstart]
    exact ⟨((exec_minted (indexed_after h earlier) he).1 id).mpr (.inl hid), rfl⟩
  · intro j e t _ _ hp ht
    obtain ⟨hnext, hkeep⟩ := exec_minted (indexed_after h e) ht
    exact ⟨(hnext id).mpr (.inr hp.1), (hkeep id hp.1).trans hp.2⟩

/-- In every run the ids minted are the numbers below the next id; each of them has one
owner, who stands in the metadata and in whose list alone the id is, once; and the
royalties of an id are those of its mint. -/
theorem ownership_indexed (h : Initialised admin s₀) (past : List (Env Address × Call Address)) :
    (∀ id, Minted s₀ past id ↔ id.val < (nextNFTId (after exec s₀ past)).val) ∧
      (∀ id, Minted s₀ past id → ∃ owner metadata,
        getNftOwner (after exec s₀ past) id = some owner ∧
        getNftMetadata (after exec s₀ past) id = some metadata ∧ metadata.owner = owner ∧
        (getOwnerNfts (after exec s₀ past) owner).count id = 1 ∧
        ∀ other, other ≠ owner → id ∉ getOwnerNfts (after exec s₀ past) other) ∧
      ∀ earlier env minter owner courseId courseName instructor purchasePrice royaltyBasis id s',
        (env, .mintCourseNft minter owner courseId courseName instructor purchasePrice
          royaltyBasis) :: earlier <:+ past →
        mintCourseNft env (after exec s₀ earlier) minter owner courseId courseName instructor
          purchasePrice royaltyBasis = .ok (id, s') →
        getRoyaltyInfo (after exec s₀ past) id = some (instructor, royaltyBasis) := by
  refine ⟨minted_iff h past, fun id hid => ?_, ?_⟩
  · have hs := indexed_after h past
    have howner := (hs.inUse id).mpr ((minted_iff h past id).mp hid)
    obtain ⟨owner, howner⟩ := Option.isSome_iff_exists.mp howner
    obtain ⟨metadata, hget, hcopy⟩ := hs.metadata id owner howner
    refine ⟨owner, metadata, howner, hget, hcopy, hs.listed.count_eq_one howner, ?_⟩
    intro other hother hmem
    have hother' := (hs.listed.mem_iff other id).mp hmem
    rw [howner] at hother'
    exact hother (Option.some.inj hother').symm
  · intro earlier env minter owner courseId courseName instructor purchasePrice royaltyBasis id s'
      hsuf hmint
    obtain ⟨_, _, _, _, _, _, hbasis, hrecipient, _⟩ := mintCourseNft_ok hmint
    have hinfo : getRoyaltyInfo s' id = some (instructor, royaltyBasis) := by
      rw [getRoyaltyInfo, hbasis, hrecipient, Table.get_set_self, Table.get_set_self]
    rw [← hinfo]
    exact royaltyInfo_kept h hsuf (map_snd_eq_ok.mpr ⟨id, hmint⟩) (by simp only [mintedId, hmint])

/-- Two NFTs; the first goes from 5 to 6, then from 6 to itself. -/
def exampleNftRun : List (Env Nat × Call Nat) :=
  [(exampleEnv 0 [6], .transferNft 6 6 (.lit 0)),
    (exampleEnv 0 [5], .transferNft 5 6 (.lit 0)),
    (exampleEnv 0 [1], .mintCourseNft 1 6 "rust" "Rust" 9 (.lit 10) (.lit 500)),
    (exampleEnv 0 [1], .mintCourseNft 1 5 "rust" "Rust" 9 (.lit 10) (.lit 500))]

theorem ownership_indexed_moved :
    Minted exampleNfts exampleNftRun (.lit 1) ∧ ¬ Minted exampleNfts exampleNftRun (.lit 2) := by
  have hids := (ownership_indexed exampleNfts_initialised exampleNftRun).1
  refine ⟨(hids _).mpr (by decide +kernel), fun hminted => ?_⟩
  exact absurd ((hids _).mp hminted) (by decide +kernel)

end Runs

end Scoopdope.Nft
