import Scoopdope.Nft.Ownership

/-!
# Course NFTs: access rights

A right to access is stored under the NFT and its holder, with no link to the owner who
granted it. `granted` is what the grants and revocations of the current owner come to: a
transfer to another address starts over. A transfer only adds a right and takes none
away, so access is the owner's or granted by the owner in every state of a run exactly
when no NFT changes hands while somebody but its new owner can access it
(`access_follows_iff`).
-/

namespace Scoopdope.Nft

open Soroban

variable {Address : Type} [DecidableEq Address]

/-- What an accepted call does to the grants of the current owners. -/
def grantStep (granted : U32 → Address → Bool) (_ : Storage Address)
    (i : Env Address × Call Address) : U32 → Address → Bool :=
  match i.2 with
  | .grantAccess _ nftId holder => fun id h =>
    if id = nftId ∧ h = holder then true else granted id h
  | .revokeAccess _ nftId holder => fun id h =>
    if id = nftId ∧ h = holder then false else granted id h
  | .transferNft from_ to_ nftId => fun id h =>
    if id = nftId ∧ to_ ≠ from_ then false else granted id h
  | _ => granted

/-- Whether the current owner has granted the holder access, since it became the owner,
and has not revoked it since. -/
def granted (s₀ : Storage Address) (past : List (Env Address × Call Address)) :
    U32 → Address → Bool :=
  traced exec s₀ grantStep (fun _ _ => false) past

/-- Access is the owner's, or granted by the owner. -/
def Follows (s : Storage Address) (granted : U32 → Address → Bool) : Prop :=
  ∀ id holder, hasAccess s id holder = true →
    getNftOwner s id = some holder ∨ granted id holder = true

/-- The call is a transfer to another address that passes its checks, of an NFT that
somebody but the new owner can access. -/
def LeavesAccess (s : Storage Address) (i : Env Address × Call Address) : Prop :=
  ∃ from_ to_ nftId holder, i.2 = .transferNft from_ to_ nftId ∧ from_ ∈ i.1.auths ∧
    getNftOwner s nftId = some from_ ∧ to_ ≠ from_ ∧ holder ≠ to_ ∧
    hasAccess s nftId holder = true

section Steps

variable {s s' : Storage Address} {granted : U32 → Address → Bool}
  {i : Env Address × Call Address}

theorem hasAccess_set {nftId : U32} {holder : Address}
    (h : s'.accessRights = s.accessRights.set (nftId, holder) true) (id : U32) (a : Address) :
    hasAccess s' id a = true ↔ id = nftId ∧ a = holder ∨ hasAccess s id a = true := by
  unfold hasAccess
  rw [h, Table.get_set]
  split
  · next heq => simp [Prod.mk.inj heq]
  · next hne =>
    have hne' : ¬ (id = nftId ∧ a = holder) := fun heq => hne (by rw [heq.1, heq.2])
    simp [hne']

theorem hasAccess_remove {nftId : U32} {holder : Address}
    (h : s'.accessRights = s.accessRights.remove (nftId, holder)) (id : U32) (a : Address) :
    hasAccess s' id a = true ↔ ¬ (id = nftId ∧ a = holder) ∧ hasAccess s id a = true := by
  unfold hasAccess
  rw [h, Table.get_remove]
  split
  · next heq => simp [Prod.mk.inj heq]
  · next hne =>
    have hne' : ¬ (id = nftId ∧ a = holder) := fun heq => hne (by rw [heq.1, heq.2])
    simp [hne']

/-- A transfer that passes its checks is accepted: the metadata is there. -/
theorem transfer_succeeds (hs : Indexed s) {env : Env Address} {from_ to_ : Address} {nftId : U32}
    (hauth : from_ ∈ env.auths) (howner : getNftOwner s nftId = some from_) :
    ∃ s', transferNft env s from_ to_ nftId = .ok s' := by
  obtain ⟨metadata, hget, _⟩ := hs.metadata nftId from_ howner
  have howner' : s.nftOwner.get nftId = some from_ := howner
  have hget' : s.nftMetadata.get nftId = some metadata := hget
  simp only [transferNft, bind_eq_ok, assert_eq_ok, Env.requireAuth_eq_ok, expect_eq_ok,
    exists_const, pure_eq_ok]
  exact ⟨_, hauth, from_, howner', rfl, metadata, hget', rfl⟩

/-- After a transfer that leaves access, somebody has access whom the new owner has not
granted any. -/
theorem LeavesAccess.breaks (hi : LeavesAccess s i) (h : exec s i = .ok s') :
    ¬ Follows s' (grantStep granted s i) := by
  obtain ⟨env, call⟩ := i
  obtain ⟨from_, to_, nftId, holder, rfl, _, _, hto, hholder, haccess⟩ := hi
  obtain ⟨_, _, _, howner, _, _, _, _, _, hrights⟩ := transferNft_ok h
  intro hs
  have hstill := (hasAccess_set hrights nftId holder).mpr (.inr haccess)
  rcases hs nftId holder hstill with hown | hgrant
  · rw [getNftOwner_set howner, if_pos rfl] at hown
    exact hholder (Option.some.inj hown).symm
  · simp [grantStep, hto] at hgrant

/-- Every other accepted call keeps access with the owner and its grants. -/
theorem Follows.step (hs : Follows s granted) (hindex : Indexed s) (hi : ¬ LeavesAccess s i)
    (h : exec s i = .ok s') : Follows s' (grantStep granted s i) := by
  obtain ⟨env, call⟩ := i
  intro id a haccess
  cases call with
  | initializeContract admin =>
    obtain ⟨_, _, rfl⟩ := initializeContract_ok.mp h
    exact hs id a haccess
  | mintCourseNft admin owner courseId courseName instructor purchasePrice royaltyBasis =>
    obtain ⟨minted, hc⟩ := map_snd_eq_ok.mp h
    obtain ⟨hminted, _, _, howner, _, _, _, _, hrights⟩ := mintCourseNft_ok hc
    show getNftOwner s' id = some a ∨ granted id a = true
    rw [getNftOwner_set howner]
    rcases (hasAccess_set hrights id a).mp haccess with ⟨rfl, rfl⟩ | hold
    · exact .inl (if_pos rfl)
    · rcases hs id a hold with hown | hgrant
      -- The id of a mint had no owner before.
      · have hlt := (hindex.inUse id).mp (by rw [hown]; rfl)
        have hne : id ≠ minted := by
          rintro rfl
          rw [← hminted] at hlt
          exact lt_irrefl _ hlt
        rw [if_neg hne]
        exact .inl hown
      · exact .inr hgrant
  | transferNft from_ to_ nftId =>
    obtain ⟨hauth, hcurrent, _, howner, _, _, _, _, _, hrights⟩ := transferNft_ok h
    show getNftOwner s' id = some a ∨
      (if id = nftId ∧ to_ ≠ from_ then false else granted id a) = true
    rw [getNftOwner_set howner]
    rcases (hasAccess_set hrights id a).mp haccess with ⟨rfl, rfl⟩ | hold
    · exact .inl (if_pos rfl)
    · by_cases hid : id = nftId
      · subst hid
        rw [if_pos rfl]
        by_cases hto : to_ = from_
        · subst hto
          rw [if_neg fun hne => hne.2 rfl, ← hcurrent]
          exact hs id a hold
        · refine .inl (congrArg some ?_)
          by_contra hne
          exact hi ⟨from_, to_, id, a, rfl, hauth, hcurrent, hto, fun heq => hne heq.symm, hold⟩
      · rw [if_neg hid, if_neg fun hne => hid hne.1]
        exact hs id a hold
  | grantAccess nftOwner nftId holder =>
    obtain ⟨_, _, rfl⟩ := grantAccess_ok.mp h
    show getNftOwner s id = some a ∨
      (if id = nftId ∧ a = holder then true else granted id a) = true
    rcases (hasAccess_set (s := s) rfl id a).mp haccess with heq | hold
    · exact .inr (if_pos heq)
    · split
      · exact .inr rfl
      · exact hs id a hold
  | revokeAccess nftOwner nftId holder =>
    obtain ⟨_, _, rfl⟩ := revokeAccess_ok.mp h
    show getNftOwner s id = some a ∨
      (if id = nftId ∧ a = holder then false else granted id a) = true
    obtain ⟨hne, hold⟩ := (hasAccess_remove (s := s) rfl id a).mp haccess
    rw [if_neg hne]
    exact hs id a hold

end Steps

/-! ## Runs -/

section Runs

variable {admin : Address} {s₀ : Storage Address}

theorem Initialised.noAccess (h : Initialised admin s₀) :
    Follows s₀ fun _ _ => false := by
  obtain ⟨env, h⟩ := h
  obtain ⟨_, _, rfl⟩ := initializeContract_ok.mp h
  intro id holder haccess
  cases haccess

/-- In every state of a run, access is the owner's or granted by the owner, exactly when
no transfer of the run leaves access behind. -/
theorem access_follows_iff (h : Initialised admin s₀) (past : List (Env Address × Call Address)) :
    (∀ earlier, earlier <:+ past → ∀ id holder,
      hasAccess (after exec s₀ earlier) id holder = true →
      getNftOwner (after exec s₀ earlier) id = some holder ∨
        granted s₀ earlier id holder = true) ↔
      Guarded (fun earlier i => ¬ LeavesAccess (after exec s₀ earlier) i) past := by
  refine throughout_iff_guarded (P := fun earlier =>
    Follows (after exec s₀ earlier) (granted s₀ earlier)) h.noAccess past fun e i _ hs => ?_
  have hindex := indexed_after h e
  cases he : exec (after exec s₀ e) i with
  | ok s' =>
    rw [after, apply_ok he, granted, traced_ok he]
    exact ⟨fun hfollows hleaves => hleaves.breaks he hfollows,
      fun hstays => Follows.step hs hindex hstays he⟩
  | error t =>
    rw [after, apply_error he, granted, traced_error he]
    refine iff_of_true hs ?_
    obtain ⟨env, call⟩ := i
    rintro ⟨from_, to_, nftId, holder, rfl, hauth, howner, _⟩
    obtain ⟨s', hs'⟩ : ∃ s', transferNft env (after exec s₀ e) from_ to_ nftId = .ok s' :=
      transfer_succeeds hindex hauth howner
    cases he.symm.trans hs'

/-- Contract 5 lets 7 access its NFT, and takes its own right and 7's back before it
transfers the NFT to 6. -/
def exampleCleared : List (Env Nat × Call Nat) :=
  [(exampleEnv 0 [5], .transferNft 5 6 (.lit 0)),
    (exampleEnv 0 [5], .revokeAccess 5 (.lit 0) 5),
    (exampleEnv 0 [5], .revokeAccess 5 (.lit 0) 7),
    (exampleEnv 0 [5], .grantAccess 5 (.lit 0) 7),
    (exampleEnv 0 [1], .mintCourseNft 1 5 "rust" "Rust" 9 (.lit 10) (.lit 500))]

theorem access_follows_iff_cleared :
    getNftOwner (after exec exampleNfts exampleCleared) (.lit 0) = some 6 ∨
      granted exampleNfts exampleCleared (.lit 0) 6 = true := by
  refine (access_follows_iff exampleNfts_initialised exampleCleared).mpr
    ⟨?_, nofun, nofun, nofun, nofun, trivial⟩ _ (List.suffix_refl _) _ _ (by decide +kernel)
  rintro ⟨from_, to_, nftId, holder, -, -, -, -, -, haccess⟩
  have hnone : (after exec exampleNfts exampleCleared.tail).accessRights.entries = [] := by
    decide +kernel
  have hempty : (after exec exampleNfts exampleCleared.tail).accessRights = ∅ := AList.ext hnone
  unfold hasAccess at haccess
  have hget : (after exec exampleNfts exampleCleared.tail).accessRights.get (nftId, holder) =
      none := by rw [hempty, Table.get_empty]
  have hfalse := congrArg (fun right => right.getD false) hget
  exact absurd (haccess.symm.trans hfalse) nofun

/-- Contract 5 lets 7 access its NFT and transfers it to 6. -/
def exampleLeft : List (Env Nat × Call Nat) :=
  [(exampleEnv 0 [5], .transferNft 5 6 (.lit 0)),
    (exampleEnv 0 [5], .grantAccess 5 (.lit 0) 7),
    (exampleEnv 0 [1], .mintCourseNft 1 5 "rust" "Rust" 9 (.lit 10) (.lit 500))]

/-- The NFT is 6's, which granted nothing, and 5 and 7 can still access it. -/
theorem access_left_behind :
    getNftOwner (after exec exampleNfts exampleLeft) (.lit 0) = some 6 ∧
    granted exampleNfts exampleLeft (.lit 0) 5 = false ∧
    granted exampleNfts exampleLeft (.lit 0) 7 = false ∧
    hasAccess (after exec exampleNfts exampleLeft) (.lit 0) 5 = true ∧
    hasAccess (after exec exampleNfts exampleLeft) (.lit 0) 7 = true :=
  ⟨by decide +kernel, by decide +kernel, by decide +kernel, by decide +kernel, by decide +kernel⟩

end Runs

end Scoopdope.Nft
