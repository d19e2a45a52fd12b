import Mathlib.Logic.Relation
import Scoopdope.Async.Custody
import Scoopdope.Webhooks.Service

/-!
# Webhooks: deliveries in hand

Who sends deliveries has copies of their rows in hand, and a copy goes from one phase to the next:
it waits, it is posted, it is saved. A `Step` is what one owner does with one copy. Copies are taken
of pending rows that nobody has a copy of.

`Step.inv`: the attempts of a row or copy are then the posts that were made, so there are no more
than `maxAttempts`, and none after a success.
-/

namespace Scoopdope.Webhooks

open Async.Custody Database

inductive Phase
  | waiting
  | posting
  | saving
deriving DecidableEq

structure Copy where
  phase : Phase
  delivery : WebhookDelivery

@[ext]
structure Holdings (O : Type) where
  copies : O → List Copy
  deliveries : DeliveryTable
  log : List Mark

/-! ## The log -/

/-- The number of posts of a delivery. -/
def posts (id : String) (log : List Mark) : Nat := log.count (.posted id)

/-- No delivery is posted after a success. -/
def Proper : List Mark → Prop
  | [] => True
  | .posted id :: log => .succeeded id ∉ log ∧ Proper log
  | .succeeded _ :: log => Proper log

section Log

variable {id id' : String} {log log' : List Mark}

theorem posts_posted : posts id (.posted id :: log) = posts id log + 1 :=
  List.count_cons_self

/-- The logs are the same but for what is about one delivery. -/
def SameBut (id : String) (log log' : List Mark) : Prop :=
  ∀ id', id' ≠ id → posts id' log' = posts id' log ∧ (.succeeded id' ∈ log' ↔ .succeeded id' ∈ log)

theorem sameBut_refl : SameBut id log log := fun _ _ => ⟨rfl, Iff.rfl⟩

theorem sameBut_posted : SameBut id log (.posted id :: log) := by
  intro id' hne
  refine ⟨List.count_cons_of_ne fun h => ?_, ?_⟩
  · cases h
    exact hne rfl
  · simp

theorem sameBut_succeeded : SameBut id log (.succeeded id :: log) := by
  intro id' hne
  have hne' : Mark.succeeded id ≠ .posted id' := nofun
  refine ⟨List.count_cons_of_ne hne', ?_⟩
  simp [hne]

/-- A response is no post. -/
theorem posts_marked (response : Response) (id id' : String) (log : List Mark) :
    posts id (marked response id' log) = posts id log := by
  unfold marked
  split
  · exact List.count_cons_of_ne (by nofun)
  · rfl

theorem sameBut_marked (response : Response) : SameBut id log (marked response id log) := by
  unfold marked
  split
  · exact sameBut_succeeded
  · exact sameBut_refl

theorem proper_marked (response : Response) (h : Proper log) :
    Proper (marked response id log) := by
  unfold marked
  split
  · exact h
  · exact h

end Log

/-! ## Rows and copies -/

/-- The attempts are the posts, and a row that is pending may be posted. -/
structure Counted (log : List Mark) (delivery : WebhookDelivery) : Prop where
  attempts : delivery.attempts = posts delivery.id log
  pending : delivery.status = .pending →
    .succeeded delivery.id ∉ log ∧ delivery.attempts < maxAttempts

theorem Counted.congr {log log' : List Mark} {row : WebhookDelivery}
    (hlog : posts row.id log' = posts row.id log ∧ (.succeeded row.id ∈ log' ↔
      .succeeded row.id ∈ log)) (hrow : Counted log row) : Counted log' row where
  attempts := hrow.attempts.trans hlog.1.symm
  pending hpending := by
    rw [hlog.2]
    exact hrow.pending hpending

namespace Holdings

variable {O : Type}

/-- The deliveries that an owner has copies of. -/
def held (h : Holdings O) (o : O) : List String := (h.copies o).map fun copy => copy.delivery.id

/-- What is known of a copy in its phase. -/
def Sound (h : Holdings O) (copy : Copy) : Prop :=
  match copy.phase with
  | .waiting => copy.delivery ∈ h.deliveries ∧ copy.delivery.status = .pending ∧
      Counted h.log copy.delivery
  | .posting => (h.deliveries.get copy.delivery.id).isSome = true ∧
      copy.delivery.attempts = posts copy.delivery.id h.log ∧
      .succeeded copy.delivery.id ∉ h.log
  | .saving => (h.deliveries.get copy.delivery.id).isSome = true ∧ Counted h.log copy.delivery

structure Inv (h : Holdings O) : Prop where
  distinct : Distinct h.held
  copies : ∀ o, ∀ copy ∈ h.copies o, h.Sound copy
  rows : ∀ row ∈ h.deliveries, Free h.held row.id → Counted h.log row
  unknown : ∀ id, h.deliveries.get id = none → posts id h.log = 0 ∧ .succeeded id ∉ h.log
  proper : Proper h.log
  bounded : ∀ id, posts id h.log ≤ maxAttempts

variable {h h' : Holdings O} {o o' : O} {copy : Copy} {l₁ l₂ : List Copy}

theorem Sound.isSome (hsound : h.Sound copy) :
    (h.deliveries.get copy.delivery.id).isSome = true := by
  obtain ⟨phase, delivery⟩ := copy
  cases phase with
  | waiting =>
    have hget : h.deliveries.get delivery.id = some delivery := hsound.1
    rw [hget, Option.isSome_some]
  | posting => exact hsound.1
  | saving => exact hsound.1

/-- What is done with other deliveries does not matter to a copy. -/
theorem Sound.congr
    (hlog : posts copy.delivery.id h'.log = posts copy.delivery.id h.log ∧
      (.succeeded copy.delivery.id ∈ h'.log ↔ .succeeded copy.delivery.id ∈ h.log))
    (hget : h'.deliveries.get copy.delivery.id = h.deliveries.get copy.delivery.id)
    (hsound : h.Sound copy) : h'.Sound copy := by
  obtain ⟨phase, delivery⟩ := copy
  have hsame : h'.deliveries.get delivery.id = h.deliveries.get delivery.id := hget
  cases phase with
  | waiting =>
    obtain ⟨hmem, hpending, hcounted⟩ := hsound
    exact ⟨hsame.trans hmem, hpending, hcounted.congr hlog⟩
  | posting =>
    obtain ⟨hsome, hattempts, hnone⟩ := hsound
    refine ⟨?_, hattempts.trans hlog.1.symm, ?_⟩
    · rw [hsame]
      exact hsome
    · rw [hlog.2]
      exact hnone
  | saving =>
    obtain ⟨hsome, hcounted⟩ := hsound
    refine ⟨?_, hcounted.congr hlog⟩
    rw [hsame]
    exact hsome

variable [DecidableEq O]

/-- The holdings with other copies for one owner. -/
def put (h : Holdings O) (o : O) (copies : List Copy) : Holdings O :=
  { h with copies := Function.update h.copies o copies }

theorem held_update {copies : O → List Copy} {new : List Copy}
    (hcopies : h'.copies = Function.update copies o new) :
    h'.held = Function.update (fun o => (copies o).map fun copy => copy.delivery.id) o
      (new.map fun copy => copy.delivery.id) := by
  funext o'
  unfold held
  rw [hcopies, Function.update_apply, Function.update_apply]
  split <;> rfl

/-! ## One copy -/

/-- All other copies are of other deliveries. -/
theorem Inv.other (hinv : Inv h) (hcopy : h.copies o = l₁ ++ copy :: l₂) {copy' : Copy}
    (hmem : copy' ∈ Function.update h.copies o (l₁ ++ l₂) o') :
    copy' ∈ h.copies o' ∧ copy'.delivery.id ≠ copy.delivery.id := by
  have hheld : h.held o = (l₁.map fun copy => copy.delivery.id) ++
      copy.delivery.id :: l₂.map fun copy => copy.delivery.id := by
    rw [held, hcopy, List.map_append, List.map_cons]
  rw [Function.update_apply] at hmem
  split at hmem
  · next hsame =>
    rw [hsame, hcopy]
    refine ⟨?_, fun hid => ?_⟩
    · rcases List.mem_append.mp hmem with hmem | hmem
      · exact List.mem_append_left _ hmem
      · exact List.mem_append_right _ (List.mem_cons_of_mem _ hmem)
    · have hnodup := hinv.distinct.nodup o
      rw [hheld, List.nodup_middle, List.nodup_cons, ← List.map_append] at hnodup
      refine hnodup.1 ?_
      rw [← hid]
      exact List.mem_map_of_mem hmem
  · next hne =>
    refine ⟨hmem, fun hid => hne ?_⟩
    refine hinv.distinct.owner (List.mem_map_of_mem hmem) ?_
    rw [hid, hheld]
    exact List.mem_append_right _ List.mem_cons_self

/-- The owner of a copy puts another copy of the same delivery in its place, or none. -/
theorem Inv.replace (hinv : Inv h) (hcopy : h.copies o = l₁ ++ copy :: l₂) (new : Option Copy)
    (hcopies : h'.copies = Function.update h.copies o (l₁ ++ (new.toList ++ l₂)))
    (hid : ∀ copy' ∈ new, copy'.delivery.id = copy.delivery.id)
    (hlog : SameBut copy.delivery.id h.log h'.log)
    (hdeliveries : ∀ id, id ≠ copy.delivery.id → h'.deliveries.get id = h.deliveries.get id)
    (hsome : (h'.deliveries.get copy.delivery.id).isSome = true)
    (hnew : ∀ copy' ∈ new, h'.Sound copy')
    (hrow : new = none → ∀ row, h'.deliveries.get copy.delivery.id = some row →
      Counted h'.log row)
    (hproper : Proper h'.log) (hbounded : posts copy.delivery.id h'.log ≤ maxAttempts) :
    Inv h' := by
  have hheld := held_update hcopies
  have hheldo : h.held o = (l₁.map fun copy => copy.delivery.id) ++
      copy.delivery.id :: l₂.map fun copy => copy.delivery.id := by
    rw [held, hcopy, List.map_append, List.map_cons]
  have hids : (new.toList.map fun copy => copy.delivery.id).Sublist [copy.delivery.id] := by
    cases new with
    | none => exact List.nil_sublist _
    | some copy' =>
      rw [Option.toList_some, List.map_singleton, hid copy' rfl]
  refine ⟨?_, fun o' copy' hmem => ?_, fun row hmem hfree => ?_, fun id hnone => ?_, hproper,
    fun id => ?_⟩
  · rw [hheld]
    refine hinv.distinct.update ?_
    rw [hheldo, List.map_append, List.map_append]
    exact (List.Sublist.refl _).append (hids.append_right _)
  · -- The new copy, or one of the others.
    have hcases : copy' ∈ new ∨ copy' ∈ Function.update h.copies o (l₁ ++ l₂) o' := by
      rw [hcopies, Function.update_apply] at hmem
      rw [Function.update_apply]
      split at hmem
      · next hsame =>
        rw [if_pos hsame]
        simp only [List.mem_append, Option.mem_toList] at hmem ⊢
        tauto
      · next hne =>
        rw [if_neg hne]
        exact .inr hmem
    rcases hcases with hmem | hmem
    · exact hnew copy' hmem
    · obtain ⟨hold, hne⟩ := hinv.other hcopy hmem
      exact (hinv.copies o' copy' hold).congr (hlog _ hne) (hdeliveries _ hne)
  · by_cases hrowid : row.id = copy.delivery.id
    · have hget : h'.deliveries.get copy.delivery.id = some row := by
        rw [← hrowid]
        exact hmem
      refine hrow ?_ row hget
      cases new with
      | none => rfl
      | some copy' =>
        refine absurd ?_ (hfree o)
        rw [hheld, Function.update_self, hrowid, ← hid copy' rfl]
        exact List.mem_map_of_mem (List.mem_append_right _ List.mem_cons_self)
    · have hold : row ∈ h.deliveries := (hdeliveries row.id hrowid).symm.trans hmem
      refine (hinv.rows row hold fun o' hheld' => hfree o' ?_).congr (hlog _ hrowid)
      rw [hheld, Function.update_apply]
      split
      · next hsame =>
        rw [hsame, hheldo] at hheld'
        rw [List.map_append, List.map_append]
        simp only [List.mem_append, List.mem_cons] at hheld' ⊢
        tauto
      · exact hheld'
  · have hne : id ≠ copy.delivery.id := by
      rintro rfl
      rw [hnone] at hsome
      cases hsome
    rw [(hlog id hne).1, (hlog id hne).2]
    exact hinv.unknown id ((hdeliveries id hne).symm.trans hnone)
  · by_cases hsame : id = copy.delivery.id
    · rw [hsame]
      exact hbounded
    · rw [(hlog id hsame).1]
      exact hinv.bounded id

/-- The owner of a copy gives it up. -/
theorem Inv.release (hinv : Inv h) (hcopy : h.copies o = l₁ ++ copy :: l₂)
    (hcopies : h'.copies = Function.update h.copies o (l₁ ++ l₂)) (hlog : h'.log = h.log)
    (hdeliveries : ∀ id, id ≠ copy.delivery.id → h'.deliveries.get id = h.deliveries.get id)
    (hsome : (h'.deliveries.get copy.delivery.id).isSome = true)
    (hrow : ∀ row, h'.deliveries.get copy.delivery.id = some row → Counted h.log row) :
    Inv h' := by
  have hnone {P : Copy → Prop} : ∀ copy' ∈ (none : Option Copy), P copy' :=
    fun _ hmem => absurd hmem (Option.not_mem_none _)
  refine hinv.replace hcopy none hcopies hnone ?_ hdeliveries hsome hnone ?_ ?_ ?_
  · rw [hlog]
    exact sameBut_refl
  · rw [hlog]
    exact fun _ => hrow
  · rw [hlog]
    exact hinv.proper
  · rw [hlog]
    exact hinv.bounded _

/-- An owner gets copies of rows of which nobody has one. -/
theorem Inv.gain (hinv : Inv h) (rows : List WebhookDelivery)
    (hcopies : h'.copies = Function.update h.copies o (h.copies o ++ rows.map (Copy.mk .waiting)))
    (hnodup : (rows.map fun row => row.id).Nodup) (hfree : ∀ row ∈ rows, Free h.held row.id)
    (hlog : h'.log = h.log)
    (hdeliveries : ∀ id, (∀ row ∈ rows, row.id ≠ id) →
      h'.deliveries.get id = h.deliveries.get id)
    (hrows : ∀ row ∈ rows, row ∈ h'.deliveries ∧ row.status = .pending ∧ Counted h.log row) :
    Inv h' := by
  have hheld : h'.held = Function.update h.held o (h.held o ++ rows.map fun row => row.id) := by
    rw [held_update hcopies, List.map_append, List.map_map]
    rfl
  have hfree' : ∀ id ∈ rows.map (fun row => row.id), Free h.held id := by
    intro id hid
    obtain ⟨row, hrow, rfl⟩ := List.mem_map.mp hid
    exact hfree row hrow
  have hsame (id : String) : posts id h'.log = posts id h.log ∧
      (.succeeded id ∈ h'.log ↔ .succeeded id ∈ h.log) := by
    rw [hlog]
    exact ⟨rfl, Iff.rfl⟩
  refine ⟨?_, fun o' copy hmem => ?_, fun row hmem hrowfree => ?_, fun id hnone => ?_, ?_,
    fun id => ?_⟩
  · rw [hheld]
    exact hinv.distinct.take hnodup hfree'
  · have hold (hmem : copy ∈ h.copies o') : h'.Sound copy := by
      refine (hinv.copies o' copy hmem).congr (hsame _) (hdeliveries _ fun row hrow hid => ?_)
      refine hfree row hrow o' ?_
      rw [hid]
      exact List.mem_map_of_mem hmem
    rw [hcopies, Function.update_apply] at hmem
    split at hmem
    · next howner =>
      rcases List.mem_append.mp hmem with hmem | hmem
      · rw [← howner] at hmem
        exact hold hmem
      · obtain ⟨row, hrow, rfl⟩ := List.mem_map.mp hmem
        obtain ⟨hstored, hpending, hcounted⟩ := hrows row hrow
        exact ⟨hstored, hpending, hcounted.congr (hsame _)⟩
    · exact hold hmem
  · rw [hheld] at hrowfree
    refine (hinv.rows row ?_ hrowfree.of_take).congr (hsame _)
    refine (hdeliveries row.id fun row' hrow' hid => hrowfree o ?_).symm.trans hmem
    rw [Function.update_self, ← hid]
    exact List.mem_append_right _ (List.mem_map_of_mem hrow')
  · rw [hlog]
    refine hinv.unknown id ((hdeliveries id fun row hrow hid => ?_).symm.trans hnone)
    have hstored : h'.deliveries.get row.id = some row := (hrows row hrow).1
    rw [hid, hnone] at hstored
    cases hstored
  · rw [hlog]
    exact hinv.proper
  · rw [hlog]
    exact hinv.bounded id

/-! ## Steps -/

/-- What an owner does with a copy. -/
inductive Step (h : Holdings O) : Holdings O → Prop
  /-- A new row. -/
  | create (o : O) (row : WebhookDelivery) (fresh : h.deliveries.get row.id = none)
      (pending : row.status = .pending) (attempts : row.attempts = 0) :
      Step h { h.put o (h.copies o ++ [⟨.waiting, row⟩]) with
        deliveries := h.deliveries.save row }
  | take (o : O) (rows : List WebhookDelivery) (nodup : (rows.map fun row => row.id).Nodup)
      (found : ∀ row ∈ rows, row ∈ h.deliveries ∧ row.status = .pending ∧ Free h.held row.id) :
      Step h (h.put o (h.copies o ++ rows.map (Copy.mk .waiting)))
  | drop (o : O) (delivery : WebhookDelivery) (l₁ l₂ : List Copy)
      (copy : h.copies o = l₁ ++ ⟨.waiting, delivery⟩ :: l₂) : Step h (h.put o (l₁ ++ l₂))
  | post (o : O) (delivery : WebhookDelivery) (l₁ l₂ : List Copy)
      (copy : h.copies o = l₁ ++ ⟨.waiting, delivery⟩ :: l₂) :
      Step h { h.put o (l₁ ++ ⟨.posting, attempted delivery⟩ :: l₂) with
        log := .posted delivery.id :: h.log }
  | respond (o : O) (delivery : WebhookDelivery) (l₁ l₂ : List Copy) (now : Int)
      (response : Response) (copy : h.copies o = l₁ ++ ⟨.posting, delivery⟩ :: l₂) :
      Step h { h.put o (l₁ ++ ⟨.saving, settled now delivery response⟩ :: l₂) with
        log := marked response delivery.id h.log }
  | store (o : O) (delivery : WebhookDelivery) (l₁ l₂ : List Copy)
      (copy : h.copies o = l₁ ++ ⟨.saving, delivery⟩ :: l₂) :
      Step h { h.put o (l₁ ++ l₂) with deliveries := h.deliveries.save delivery }

end Holdings

section Settled

variable {now : Int} {delivery : WebhookDelivery} {response : Response}

theorem failing_kept : (failing now delivery).id = delivery.id ∧
    (failing now delivery).attempts = delivery.attempts := by
  unfold failing
  split <;> exact ⟨rfl, rfl⟩

/-- A delivery that has failed is pending only while attempts are left. -/
theorem failing_pending (h : (failing now delivery).status = .pending) :
    delivery.attempts < maxAttempts := by
  unfold failing at h
  split at h
  · next hleft => exact hleft
  · cases h

variable (now delivery response) in
theorem settled_kept : (settled now delivery response).id = delivery.id ∧
    (settled now delivery response).attempts = delivery.attempts := by
  cases response with
  | resolved status responseBody =>
    unfold settled
    dsimp only
    split
    · exact ⟨rfl, rfl⟩
    · exact failing_kept
  | rejected message => exact failing_kept

/-- A delivery that is pending after its post has not succeeded. -/
theorem settled_pending (h : (settled now delivery response).status = .pending) :
    response.succeeds = false ∧ delivery.attempts < maxAttempts := by
  cases response with
  | resolved status responseBody =>
    unfold settled at h
    dsimp only at h
    split at h
    · cases h
    · next hfailed =>
      have hleft := failing_pending h
      exact ⟨Bool.eq_false_iff.mpr hfailed, hleft⟩
  | rejected message =>
    have hleft := failing_pending h
    exact ⟨rfl, hleft⟩

end Settled

namespace Holdings

variable {O : Type} [DecidableEq O] {h h' : Holdings O}

omit [DecidableEq O] in
theorem Inv.sound (hinv : Inv h) {o : O} {l₁ l₂ : List Copy} {copy : Copy}
    (hcopy : h.copies o = l₁ ++ copy :: l₂) : h.Sound copy := by
  refine hinv.copies o copy ?_
  rw [hcopy]
  exact List.mem_append_right _ List.mem_cons_self

section Kept

variable {o : O} {delivery : WebhookDelivery} {l₁ l₂ : List Copy} (hinv : Inv h)
include hinv

theorem inv_create {row : WebhookDelivery} (hfresh : h.deliveries.get row.id = none)
    (hpending : row.status = .pending) (hattempts : row.attempts = 0) :
    Inv { h.put o (h.copies o ++ [⟨.waiting, row⟩]) with
      deliveries := h.deliveries.save row } := by
  obtain ⟨hposts, hnone⟩ := hinv.unknown row.id hfresh
  refine hinv.gain (o := o) [row] rfl (List.nodup_singleton _) ?_ rfl ?_ ?_
  · rintro row' hrow' o' hheld
    cases List.mem_singleton.mp hrow'
    obtain ⟨copy, hcopy, hid⟩ := List.mem_map.mp hheld
    have hsome := (hinv.copies o' copy hcopy).isSome
    rw [hid, hfresh] at hsome
    cases hsome
  · intro id hid
    change (h.deliveries.save row).get id = _
    rw [Repository.get_save, if_neg fun hsame => hid row List.mem_cons_self hsame.symm]
  · intro row' hrow'
    cases List.mem_singleton.mp hrow'
    refine ⟨Repository.mem_save.mpr (.inl rfl), hpending, ?_, fun _ => ⟨hnone, ?_⟩⟩
    · rw [hattempts, hposts]
    · rw [hattempts]
      decide

theorem inv_take {rows : List WebhookDelivery} (hnodup : (rows.map fun row => row.id).Nodup)
    (hfound : ∀ row ∈ rows, row ∈ h.deliveries ∧ row.status = .pending ∧ Free h.held row.id) :
    Inv (h.put o (h.copies o ++ rows.map (Copy.mk .waiting))) := by
  refine hinv.gain (o := o) rows rfl hnodup (fun row hrow => (hfound row hrow).2.2) rfl
    (fun id _ => rfl) fun row hrow => ?_
  obtain ⟨hmem, hpending, hfree⟩ := hfound row hrow
  exact ⟨hmem, hpending, hinv.rows row hmem hfree⟩

theorem inv_drop (hcopy : h.copies o = l₁ ++ ⟨.waiting, delivery⟩ :: l₂) :
    Inv (h.put o (l₁ ++ l₂)) := by
  have hsound := hinv.sound hcopy
  refine hinv.release hcopy rfl rfl (fun _ _ => rfl) hsound.isSome fun row hrow => ?_
  -- The row is the copy.
  obtain ⟨hmem, hpending, hcounted⟩ := hsound
  cases hrow.symm.trans hmem
  exact hcounted

theorem inv_post (hcopy : h.copies o = l₁ ++ ⟨.waiting, delivery⟩ :: l₂) :
    Inv { h.put o (l₁ ++ ⟨.posting, attempted delivery⟩ :: l₂) with
      log := .posted delivery.id :: h.log } := by
  have hsound := hinv.sound hcopy
  have hsome := hsound.isSome
  obtain ⟨hmem, hpending, hcounted⟩ := hsound
  obtain ⟨hnone, hleft⟩ := hcounted.pending hpending
  have hposts : posts delivery.id (.posted delivery.id :: h.log) = delivery.attempts + 1 := by
    rw [posts_posted, hcounted.attempts]
  refine hinv.replace hcopy (some ⟨.posting, attempted delivery⟩) rfl ?_ sameBut_posted
    (fun _ _ => rfl) hsome ?_ nofun ⟨hnone, hinv.proper⟩ ?_
  · rintro copy' ⟨⟩
    rfl
  · rintro copy' ⟨⟩
    refine ⟨hsome, hposts.symm, ?_⟩
    change Mark.succeeded delivery.id ∉ Mark.posted delivery.id :: h.log
    simp [hnone]
  · change posts delivery.id (.posted delivery.id :: h.log) ≤ maxAttempts
    rw [hposts]
    exact hleft

theorem inv_respond (now : Int) (response : Response)
    (hcopy : h.copies o = l₁ ++ ⟨.posting, delivery⟩ :: l₂) :
    Inv { h.put o (l₁ ++ ⟨.saving, settled now delivery response⟩ :: l₂) with
      log := marked response delivery.id h.log } := by
  have hsound := hinv.sound hcopy
  have hsome := hsound.isSome
  obtain ⟨-, hattempts, hnone⟩ := hsound
  obtain ⟨hid, hkept⟩ := settled_kept now delivery response
  refine hinv.replace hcopy (some ⟨.saving, settled now delivery response⟩) rfl ?_
    (sameBut_marked response) (fun _ _ => rfl) hsome ?_ nofun
    (proper_marked response hinv.proper) ?_
  · rintro copy' ⟨⟩
    exact hid
  · rintro copy' ⟨⟩
    refine ⟨?_, ?_, fun hpending => ?_⟩
    · change (h.deliveries.get (settled now delivery response).id).isSome = true
      rw [hid]
      exact hsome
    · change (settled now delivery response).attempts =
        posts (settled now delivery response).id (marked response delivery.id h.log)
      rw [hid, hkept, posts_marked]
      exact hattempts
    · obtain ⟨hfailed, hleft⟩ := settled_pending hpending
      change Mark.succeeded (settled now delivery response).id ∉
          marked response delivery.id h.log ∧
        (settled now delivery response).attempts < maxAttempts
      rw [hid, hkept, marked, hfailed]
      exact ⟨hnone, hleft⟩
  · change posts delivery.id (marked response delivery.id h.log) ≤ maxAttempts
    rw [posts_marked]
    exact hinv.bounded _

theorem inv_store (hcopy : h.copies o = l₁ ++ ⟨.saving, delivery⟩ :: l₂) :
    Inv { h.put o (l₁ ++ l₂) with deliveries := h.deliveries.save delivery } := by
  obtain ⟨-, hcounted⟩ := hinv.sound hcopy
  refine hinv.release hcopy rfl rfl ?_ ?_ ?_
  · intro id hne
    change (h.deliveries.save delivery).get id = _
    rw [Repository.get_save, if_neg hne]
  · change ((h.deliveries.save delivery).get delivery.id).isSome = true
    rw [Repository.get_save_self, Option.isSome_some]
  · intro row hrow
    change (h.deliveries.save delivery).get delivery.id = some row at hrow
    rw [Repository.get_save_self] at hrow
    cases hrow
    exact hcounted

end Kept

theorem Step.inv (hstep : Step h h') (hinv : Inv h) : Inv h' := by
  cases hstep with
  | create o row fresh pending attempts => exact inv_create hinv fresh pending attempts
  | take o rows nodup found => exact inv_take hinv nodup found
  | drop o delivery l₁ l₂ copy => exact inv_drop hinv copy
  | post o delivery l₁ l₂ copy => exact inv_post hinv copy
  | respond o delivery l₁ l₂ now response copy => exact inv_respond hinv now response copy
  | store o delivery l₁ l₂ copy => exact inv_store hinv copy

/-- Several steps. -/
abbrev Steps : Holdings O → Holdings O → Prop := Relation.ReflTransGen Step

theorem Steps.inv (hsteps : Steps h h') (hinv : Inv h) : Inv h' := by
  induction hsteps with
  | refl => exact hinv
  | tail _ hstep ih => exact hstep.inv ih

end Holdings

end Scoopdope.Webhooks
