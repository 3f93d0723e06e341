import P5136.Profile.Fence
import Mathlib.Data.List.Chain

/-!
# The steps of writers keep the invariant

One lemma for each kind of step: the steps that only look, the cleanup, the removal of old revisions and of temporary files, the
preparation of a revision, and its publication.
-/

namespace P5136

namespace StorePhase

variable {P : Type}

/-- A phase in which nothing is claimed. -/
def Plain : StorePhase P → Prop
  | .listing .load => True
  | .cleaning .load _ => True
  | .removing .load _ _ => True
  | .discarding _ _ => True
  | .finished (.committed _ _) => False
  | .finished _ => True
  | _ => False

end StorePhase

namespace ProfileStore

variable {P : Type} {format : ProfileFormat P} {initial : ProfileDirectory} {s t : ProfileSystem P}

/-! ## Going on in the same directory -/

/-- A writer that has nothing to inspect is fenced from all. -/
theorem fenced_of_uncleaned {phase phase' : StorePhase P} (h : phase.uncleaned = none) : Fenced s phase phase' := by
  intro p remaining p' hp
  rw [h] at hp
  cases hp

/-- All are fenced from a writer that has not compared its head. -/
theorem fenced_of_checked {phase phase' : StorePhase P} (h : phase'.checked = none) : Fenced s phase phase' := by
  intro p remaining p' _ hp'
  rw [h] at hp'
  cases hp'

/-- A plain phase holds nothing and is fenced from all. -/
theorem plain_cases {phase : StorePhase P} (h : StorePhase.Plain phase) :
    phase.held = none ∧ phase.uncleaned = none ∧ phase.checked = none := by
  match phase, h with
  | .listing .load, _ | .cleaning .load _, _ | .removing .load _ _, _ | .discarding _ _, _ | .finished _, _ => exact ⟨rfl, rfl, rfl⟩

/-- Nothing is claimed of a writer in a plain phase. -/
theorem phaseSound_of_plain {id : Nat} {writer : StoreWriter P} (h : StorePhase.Plain writer.phase) :
    PhaseSound format s id writer := by
  obtain ⟨hheld, -, -⟩ := plain_cases h
  constructor
  · intro p hp
    rw [hheld] at hp
    cases hp
  all_goals
    intros
    rename_i heq
    rw [heq] at h
    exact False.elim h

/-- A writer goes on with something else. -/
theorem Inv.goto (hI : Inv format initial s) {id : Nat} {writer : StoreWriter P} (hw : s.writers.lookup id = some writer)
    {phase : StorePhase P} (hsound : PhaseSound format s id { writer with phase := phase })
    (hheld : ∀ p, phase.held = some p → writer.phase.held = some p)
    (hfenced : ∀ id' w', id' ≠ id → s.writers.lookup id' = some w' → Fenced s phase w'.phase)
    (hfencedBy : ∀ id' w', id' ≠ id → s.writers.lookup id' = some w' → Fenced s w'.phase phase) :
    Inv format initial (s.goto id writer phase) :=
  hI.quiet id { writer with phase := phase } {
    writers := rfl
    keeps := Keeps.of_revisions rfl rfl
    history := rfl
    sequences := fun _ => Nat.le_refl _
    temporaries := fun _ _ _ _ _ _ _ h => h
    files := fun _ _ h => h
    transaction := fun old hold => by
      rw [hw] at hold
      cases hold
      rfl
    sound := ⟨fun p hp => have h := hsound.held p hp; ⟨h.fits, h.next, h.computed, h.destination, h.process, h.sequence, h.bytes⟩,
      hsound.reading, hsound.loaded, fun p r hp => have h := hsound.compacting p r hp; ⟨h.checked, h.older⟩,
      hsound.published, hsound.committed⟩
    names := fun p hp => .inl ⟨writer, hw, hheld p hp⟩
    fenced := hfenced
    fencedBy := hfencedBy }

/-- A writer goes on with a plain phase. -/
theorem Inv.goto_plain (hI : Inv format initial s) {id : Nat} {writer : StoreWriter P} (hw : s.writers.lookup id = some writer)
    {phase : StorePhase P} (hplain : StorePhase.Plain phase) : Inv format initial (s.goto id writer phase) := by
  obtain ⟨hheld, huncleaned, hchecked⟩ := plain_cases hplain
  refine hI.goto hw (phaseSound_of_plain hplain) ?_ (fun _ _ _ _ => fenced_of_uncleaned huncleaned)
    (fun _ _ _ _ => fenced_of_checked hchecked)
  intro p hp
  rw [hheld] at hp
  cases hp

/-- A writer that holds a revision goes on with another phase in which it holds it. -/
theorem Inv.phaseSound_of_held (hI : Inv format initial s) {id : Nat} {writer : StoreWriter P}
    (hw : s.writers.lookup id = some writer) {prepared : PreparedRevision P} (hheld : writer.phase.held = some prepared)
    {phase : StorePhase P} (hp : phase.held = some prepared)
    (hcompacting : ∀ p remaining, phase = .compacting p remaining → Compacts s p remaining) :
    PhaseSound format s id { writer with phase := phase } where
  held p hp' := by
    have heq : prepared = p := Option.some.inj (hp.symm.trans hp')
    subst heq
    exact ((hI.phases id writer hw).held prepared hheld).at phase
  reading head remaining heq := by
    simp only at heq
    subst heq
    cases hp
  loaded snapshot heq := by
    simp only at heq
    subst heq
    cases hp
  compacting := hcompacting
  published p heq := by
    simp only at heq
    subst heq
    cases hp
  committed r p heq := by
    simp only at heq
    subst heq
    cases hp

/-- A revision under the head is there. -/
theorem lookup_ne_none_of_head {directory : ProfileDirectory} {head : Nat} (h : headRevision directory = some head) :
    directory.revisions.lookup head ≠ none := by
  obtain ⟨⟨bytes, hbytes⟩, -⟩ := headRevision_eq_some.1 h
  rw [hbytes]
  exact nofun

/-- The revision that a writer cleans up for is one it holds. -/
theorem held_of_uncleaned {phase : StorePhase P} {prepared : PreparedRevision P} {remaining : List TemporaryName}
    (h : phase.uncleaned = some (prepared, remaining)) : phase.held = some prepared := by
  match phase, h with
  | .cleaning (.save _) _, h | .removing (.save _) _ _, h | .compacting _ _, h =>
    cases h
    rfl

/-! ## Looking -/

/-- Listing the temporary files keeps the invariant. -/
theorem Inv.listing (hI : Inv format initial s) {id : Nat} {writer : StoreWriter P} (hw : s.writers.lookup id = some writer)
    {goal : ListingGoal P} (hphase : writer.phase = .listing goal) :
    Inv format initial (s.goto id writer (.cleaning goal s.directory.temporaries.keys)) := by
  cases goal with
  | load => exact hI.goto_plain hw trivial
  | save p =>
    have hheld : writer.phase.held = some p := by rw [hphase]; rfl
    refine hI.goto hw (hI.phaseSound_of_held hw hheld rfl nofun) (fun q hq => hheld.trans hq) ?_
      (fun _ _ _ _ => fenced_of_checked rfl)
    -- every temporary file that is there is listed
    intro id' w' _ _ q remaining p' hq _ _ _ hne
    cases hq
    obtain ⟨bytes, hbytes⟩ := Option.ne_none_iff_exists'.1 hne
    exact FiniteMap.mem_keys_iff.2 ⟨bytes, hbytes⟩

/-- Passing over or choosing a temporary file keeps the invariant. -/
theorem Inv.cleaning_cons (hI : Inv format initial s) {id : Nat} {writer : StoreWriter P} (hw : s.writers.lookup id = some writer)
    {goal : ListingGoal P} {name : TemporaryName} {rest : List TemporaryName} (hphase : writer.phase = .cleaning goal (name :: rest)) :
    Inv format initial (if s.directory.revisions.lookup name.destination = none then s.goto id writer (.cleaning goal rest)
      else s.goto id writer (.removing goal name rest)) := by
  cases goal with
  | load =>
    split
    · exact hI.goto_plain hw trivial
    · exact hI.goto_plain hw trivial
  | save p =>
    have hheld : writer.phase.held = some p := by rw [hphase]; rfl
    have hfenced : ∀ id' w', s.writers.lookup id' = some w' → Fenced s (.cleaning (.save p) (name :: rest)) w'.phase := by
      intro id' w' hw'
      rw [← hphase]
      exact hI.fenced _ _ _ _ hw hw'
    split
    · rename_i hnone
      refine hI.goto hw (hI.phaseSound_of_held hw hheld rfl nofun) (fun q hq => hheld.trans hq) ?_
        (fun _ _ _ _ => fenced_of_checked rfl)
      intro id' w' _ hw' q remaining p' hq hp' hhead hhead' hne
      cases hq
      rcases List.mem_cons.1 (hfenced id' w' hw' p _ p' rfl hp' hhead hhead' hne) with heq | hmem
      · -- the head is there, so the file for it is not passed over
        have hdestination := ((hI.phases id' w' hw').held p' (held_of_checked hp')).destination
        rw [← heq, hdestination] at hnone
        exact absurd hnone (lookup_ne_none_of_head hhead')
      · exact hmem
    · refine hI.goto hw (hI.phaseSound_of_held hw hheld rfl nofun) (fun q hq => hheld.trans hq) ?_
        (fun _ _ _ _ => fenced_of_checked rfl)
      intro id' w' _ hw' q remaining p' hq
      cases hq
      exact hfenced id' w' hw' p _ p' rfl

/-- Listing the revisions keeps the invariant. -/
theorem Inv.list (hI : Inv format initial s) {id : Nat} {writer : StoreWriter P} (hw : s.writers.lookup id = some writer)
    {goal : ListingGoal P} (hphase : writer.phase = .cleaning goal []) : Inv format initial (s.list id writer goal) := by
  cases goal with
  | load =>
    refine hI.goto hw ⟨nofun, fun head remaining h => ?_, nofun, nofun, nofun, nofun⟩ nofun
      (fun _ _ _ _ => fenced_of_uncleaned rfl) (fun _ _ _ _ => fenced_of_checked rfl)
    cases h
    exact .inr ⟨rfl, pairwise_revisionsDescending _, fun r p hr => mem_revisionsDescending.2 (exists_lookup_of_validAt hr)⟩
  | save p =>
    have hheld : writer.phase.held = some p := by rw [hphase]; rfl
    simp only [ProfileSystem.list]
    split
    · rename_i hhead
      refine hI.goto hw (hI.phaseSound_of_held hw hheld rfl ?_) (fun q hq => hheld.trans hq) ?_ ?_
      · intro q remaining h
        cases h
        exact ⟨fun _ => .inl hhead, fun r hr => mem_precompact hhead hr⟩
      · intro id' w' _ hw' q remaining p' hq
        cases hq
        have hfenced := hI.fenced _ _ _ _ hw hw'
        rw [hphase] at hfenced
        exact hfenced p [] p' rfl
      · -- the head is the one the writer found, so its own revision is not there
        intro id' w' _ _ q remaining p' _ hp' _ hhead'
        cases hp'
        have hnext := lt_nextRevision ((hI.phases id writer hw).held p hheld).next (hhead.symm.trans hhead')
        omega
    · exact hI.goto_plain hw trivial

/-- Reading the next revision keeps the invariant. -/
theorem Inv.read (hI : Inv format initial s) {id : Nat} {writer : StoreWriter P} (hw : s.writers.lookup id = some writer)
    {head : Option Nat} {remaining : List Nat} (hphase : writer.phase = .reading head remaining) :
    Inv format initial (s.read format id writer head remaining) := by
  have hreads := (hI.phases id writer hw).reading head remaining hphase
  have hload : ∀ snapshot, Fits format s.directory snapshot → Inv format initial (s.goto id writer (.loaded snapshot)) := by
    intro snapshot hfits
    refine hI.goto hw ⟨?_, ?_, fun snapshot' h => ?_, ?_, ?_, ?_⟩ ?_
      (fun _ _ _ _ => fenced_of_uncleaned rfl) (fun _ _ _ _ => fenced_of_checked rfl)
    case refine_3 =>
      cases h
      exact hfits
    all_goals
      intros
      contradiction
  cases remaining with
  | cons revision rest =>
    simp only [ProfileSystem.read]
    cases hlookup : s.directory.revisions.lookup revision with
    | none => exact hI.goto_plain hw trivial
    | some bytes =>
      simp only
      cases hread : readProfile format bytes with
      | some profile =>
        refine hload _ (hreads.imp_right fun hread' => ?_)
        obtain ⟨hhead, hsorted, hall⟩ := hread'
        refine ⟨hhead, newestValid_eq_some.2 ⟨?_, fun r hr => ?_⟩⟩
        · simp [validAt, hlookup, hread]
        · cases hv : validAt format s.directory r with
          | none => rfl
          | some p =>
            rcases List.mem_cons.1 (hall r p hv) with rfl | hmem
            · omega
            · have hlt := List.rel_of_pairwise_cons hsorted hmem
              omega
      | none =>
        refine hI.goto hw ⟨?_, fun head' remaining' h => ?_, ?_, ?_, ?_, ?_⟩ ?_
          (fun _ _ _ _ => fenced_of_uncleaned rfl) (fun _ _ _ _ => fenced_of_checked rfl)
        case refine_2 =>
          cases h
          refine hreads.imp_right fun hread' => ?_
          obtain ⟨hhead, hsorted, hall⟩ := hread'
          refine ⟨hhead, hsorted.of_cons, fun r p hv => ?_⟩
          rcases List.mem_cons.1 (hall r p hv) with rfl | hmem
          · simp [validAt, hlookup, hread] at hv
          · exact hmem
        all_goals
          intros
          contradiction
  | nil =>
    have hnone : Behind format s.directory head ∨ head = headRevision s.directory ∧ newestValid format s.directory = none := by
      refine hreads.imp_right fun hread' => ?_
      obtain ⟨hhead, -, hall⟩ := hread'
      refine ⟨hhead, newestValid_eq_none.2 fun r => ?_⟩
      cases hv : validAt format s.directory r with
      | none => rfl
      | some p => cases hall r p hv
    simp only [ProfileSystem.read]
    cases hlegacy : s.directory.legacy with
    | some bytes =>
      simp only
      cases hread : readProfile format bytes with
      | some profile => exact hload _ (hnone.imp_right (fun h => ⟨h.1, h.2, .inr ⟨bytes, hlegacy, hread⟩⟩))
      | none => exact hI.goto_plain hw trivial
    | none =>
      simp only
      split
      · rename_i hhead
        subst hhead
        exact hload _ (hnone.imp_right (fun h => ⟨h.1, h.2, .inl rfl⟩))
      · exact hI.goto_plain hw trivial

/-! ## Temporary files -/

/-- A system with other temporary files has the same revisions. -/
theorem keeps_temporaries (temporaries : FiniteMap TemporaryName (List UInt8)) :
    Keeps format s.directory { s.directory with temporaries := temporaries } := Keeps.of_revisions rfl rfl

/-- What is left of the temporary files behind a removal was there before. -/
theorem lookup_of_erase {name name' : TemporaryName} {bytes : List UInt8}
    (h : (s.directory.temporaries.erase name).lookup name' = some bytes) : s.directory.temporaries.lookup name' = some bytes := by
  rw [FiniteMap.lookup_erase] at h
  split at h
  · cases h
  · exact h

/-- A writer removes a temporary file and goes on with a plain phase, or is noted. -/
theorem Inv.removeTemporary (hI : Inv format initial s) {id : Nat} {writer : StoreWriter P} (writer' : StoreWriter P)
    (hw : s.writers.lookup id = some writer) (htransaction : writer'.transaction = writer.transaction)
    (hheld : writer'.phase.held = none) (hsound : PhaseSound format s id writer') (name : TemporaryName) :
    Inv format initial ((s.removeTemporary name).setWriter id writer') := by
  have hquiet : ∀ phase : StorePhase P, phase.held = none → phase.uncleaned = none ∧ phase.checked = none := by
    intro phase hphase
    match phase, hphase with
    | .listing .load, _ | .cleaning .load _, _ | .removing .load _ _, _ | .reading _ _, _ | .loaded _, _ | .discarding _ _, _
    | .published _, _ | .finished _, _ => exact ⟨rfl, rfl⟩
  obtain ⟨huncleaned, hchecked⟩ := hquiet _ hheld
  refine hI.quiet id writer' {
    writers := rfl
    keeps := keeps_temporaries _
    history := rfl
    sequences := fun _ => Nat.le_refl _
    temporaries := fun _ _ _ _ _ _ _ h => lookup_of_erase h
    files := fun _ _ h => h
    transaction := fun old hold => by
      rw [hw] at hold
      cases hold
      exact htransaction
    sound := ?_
    names := fun p hp => by
      rw [hheld] at hp
      cases hp
    fenced := fun _ _ _ _ => fenced_of_uncleaned huncleaned
    fencedBy := fun _ _ _ _ => fenced_of_checked hchecked }
  have hk : Keeps format s.directory ((s.removeTemporary name).setWriter id writer').directory := keeps_temporaries _
  refine ⟨?_, fun head r hp => (hsound.reading head r hp).keep hk, fun snapshot hp => (hsound.loaded snapshot hp).keep hk, ?_,
    hsound.published, hsound.committed⟩
  · intro p hp
    rw [hheld] at hp
    cases hp
  · intro p r hp
    rw [hp] at hheld
    cases hheld

/-- A writer behind a discarded revision starts again or ends. -/
theorem plain_afterDiscarding (writer : StoreWriter P) (retry : Bool) : StorePhase.Plain (afterDiscarding writer retry).phase := by
  unfold afterDiscarding
  split
  · split <;> trivial
  · trivial

/-- It is the same writer. -/
theorem transaction_afterDiscarding (writer : StoreWriter P) (retry : Bool) :
    (afterDiscarding writer retry).transaction = writer.transaction := by
  unfold afterDiscarding
  split
  · split <;> rfl
  · rfl

/-- A writer that is noted ends. -/
theorem phaseSound_committed {id : Nat} {writer : StoreWriter P} {revision : Nat} {profile : P} (h : Noted s id revision profile) :
    PhaseSound format s id { writer with phase := .finished (.committed revision profile) } := by
  refine ⟨nofun, nofun, nofun, nofun, nofun, fun r p heq => ?_⟩
  cases heq
  exact h

/-- A writer that saves removes the temporary file of another. -/
theorem Inv.removing (hI : Inv format initial s) {id : Nat} {writer : StoreWriter P} (hw : s.writers.lookup id = some writer)
    {goal : ListingGoal P} {name : TemporaryName} {rest : List TemporaryName} (hphase : writer.phase = .removing goal name rest) :
    Inv format initial ((s.removeTemporary name).goto id writer (.cleaning goal rest)) := by
  cases goal with
  | load =>
    have hsound : PhaseSound format s id { writer with phase := .cleaning .load rest } := phaseSound_of_plain trivial
    exact hI.removeTemporary { writer with phase := .cleaning .load rest } hw rfl rfl hsound name
  | save p =>
    have hheld : writer.phase.held = some p := by rw [hphase]; rfl
    have hk : Keeps format s.directory ((s.removeTemporary name).goto id writer (.cleaning (.save p) rest)).directory :=
      keeps_temporaries _
    refine hI.quiet id { writer with phase := .cleaning (.save p) rest } {
      writers := rfl
      keeps := hk
      history := rfl
      sequences := fun _ => Nat.le_refl _
      temporaries := fun _ _ _ _ _ _ _ h => lookup_of_erase h
      files := fun _ _ h => h
      transaction := fun old hold => by
        rw [hw] at hold
        cases hold
        rfl
      sound := ?_
      names := fun q hq => .inl ⟨writer, hw, hheld.trans hq⟩
      fenced := ?_
      fencedBy := fun _ _ _ _ => fenced_of_checked rfl }
    · refine ⟨fun q hq => ?_, nofun, nofun, nofun, nofun, nofun⟩
      cases hq
      exact (((hI.phases id writer hw).held p hheld).keep hk (fun _ => Nat.le_refl _) (fun _ h => lookup_of_erase h)).at _
    · intro id' w' _ hw' q remaining p' hq hp' hhead hhead' hne
      cases hq
      have hfenced := hI.fenced _ _ _ _ hw hw'
      rw [hphase] at hfenced
      have hmem := hfenced p (name :: rest) p' rfl hp' hhead hhead' (lookup_ne_none_of (fun _ h => lookup_of_erase h) hne)
      rcases List.mem_cons.1 hmem with heq | hmem
      · -- the removed file is gone
        exact absurd (by rw [heq]; exact FiniteMap.lookup_erase _ _ _ |>.trans (if_pos rfl)) hne
      · exact hmem

/-- Using sequence numbers keeps the invariant. -/
theorem Inv.useSequences (hI : Inv format initial s) {sequences : Nat → Nat} (h : ∀ process, s.sequences process ≤ sequences process) :
    Inv format initial { s with sequences := sequences } where
  phases id writer hw := by
    have hsound := hI.phases id writer hw
    refine ⟨fun p hp => ?_, hsound.reading, hsound.loaded, fun p r hp => ?_, hsound.published, hsound.committed⟩
    · exact (hsound.held p hp).keep (Keeps.of_revisions rfl rfl) h (fun _ hb => hb)
    · exact (hsound.compacting p r hp).keep (Keeps.of_revisions rfl rfl : Keeps format s.directory s.directory) (fun _ hb => hb)
  names := hI.names
  fenced := hI.fenced
  computed := hI.computed
  chain := hI.chain
  last := hI.last
  fresh := hI.fresh
  begun := hI.begun
  files := hI.files

/-- Preparing a revision keeps the invariant. -/
theorem Inv.prepare (hI : Inv format initial s) {id : Nat} {writer : StoreWriter P} (hw : s.writers.lookup id = some writer)
    {snapshot : ProfileSnapshot P} (hphase : writer.phase = .loaded snapshot) :
    Inv format initial (s.prepare format id writer snapshot) := by
  have hfits := (hI.phases id writer hw).loaded snapshot hphase
  unfold ProfileSystem.prepare
  cases htransaction : writer.transaction writer.attempt snapshot.profile snapshot.revision with
  | none => exact hI.goto_plain hw trivial
  | some profile =>
    simp only
    split
    · rename_i revision bytes hrevision hbytes
      generalize hname : (⟨revision, writer.process, s.sequences writer.process⟩ : TemporaryName) = name
      have hsequences : ∀ process, s.sequences process ≤
          if process = writer.process then s.sequences process + 1 else s.sequences process := by
        intro process
        split <;> omega
      -- a name with the next sequence number is no writer's
      have hnew : ∀ id' w' p', s.writers.lookup id' = some w' → w'.phase.held = some p' → p'.temporary ≠ name := by
        intro id' w' p' hw' hp' heq
        have hheld := (hI.phases id' w' hw').held p' hp'
        have hprocess := hheld.process
        have hsequence := hheld.sequence
        rw [heq, ← hname] at hprocess hsequence
        simp only at hprocess hsequence
        rw [hprocess] at hsequence
        exact Nat.lt_irrefl _ hsequence
      split
      · exact hI.useSequences hsequences
      · rename_i habsent
        have hk : Keeps format s.directory { s.directory with temporaries := s.directory.temporaries.insert name bytes } :=
          keeps_temporaries _
        refine hI.quiet id { writer with phase := .listing (.save ⟨snapshot, profile, revision, name⟩) } {
          writers := rfl
          keeps := hk
          history := rfl
          sequences := hsequences
          temporaries := fun id' w' p' _ hw' hp' b hb => by
            rw [FiniteMap.lookup_insert, if_neg (hnew id' w' p' hw' hp')] at hb
            exact hb
          files := fun _ _ h => h
          transaction := fun old hold => by
            rw [hw] at hold
            cases hold
            rfl
          sound := ?_
          names := fun p hp => .inr fun id' w' p' _ hw' hp' => by
            cases hp
            exact hnew id' w' p' hw' hp'
          fenced := fun _ _ _ _ => fenced_of_uncleaned rfl
          fencedBy := fun _ _ _ _ => fenced_of_checked rfl }
        refine ⟨fun p hp => ?_, nofun, nofun, nofun, nofun, nofun⟩
        cases hp
        refine ⟨hfits.keep hk, hrevision, htransaction, by rw [← hname], by rw [← hname], ?_, fun b hb => ?_⟩
        · simp only [← hname, if_pos]
          exact Nat.lt_succ_self _
        · simp only [FiniteMap.lookup_insert, if_pos, Option.some.injEq] at hb
          rw [← hb]
          exact hbytes
    · exact hI.goto_plain hw trivial

/-! ## Revisions -/

/-- The next revision that a writer removes is neither the head nor the newest valid one. -/
theorem Inv.keeps_compacting (hI : Inv format initial s) {id : Nat} {writer : StoreWriter P} (hw : s.writers.lookup id = some writer)
    {prepared : PreparedRevision P} {revision : Nat} {rest : List Nat} (hphase : writer.phase = .compacting prepared (revision :: rest)) :
    Keeps format s.directory { s.directory with revisions := s.directory.revisions.erase revision } := by
  have hsound := hI.phases id writer hw
  have hprepares := hsound.held prepared (by rw [hphase]; rfl)
  obtain ⟨⟨e, he, hlt⟩, hsource⟩ := (hsound.compacting prepared _ hphase).older revision List.mem_cons_self
  refine keeps_erase (fun hhead => ?_) (fun profile hnewest => ?_)
  · -- an older revision is not the head
    rcases hprepares.fits with ⟨h, p, hh, -, hgt⟩ | ⟨hcurrent, -⟩
    · have hlt' := hgt e he
      rw [hh] at hhead
      cases hhead
      omega
    · rw [← hcurrent, he] at hhead
      cases hhead
      exact Nat.lt_irrefl _ hlt
  · -- nor is it the newest valid one: that is the head behind the writer, or its source
    rcases hprepares.fits with ⟨h, p, hh, hp, hgt⟩ | ⟨hcurrent, hsourced⟩
    · have hlt' := hgt e he
      rw [newestValid_of_head hh hp] at hnewest
      cases hnewest
      omega
    · unfold Sourced at hsourced
      cases hrevision : prepared.snapshot.revision with
      | none =>
        rw [hrevision] at hsourced
        simp only at hsourced
        rw [hsourced.1] at hnewest
        cases hnewest
      | some source =>
        rw [hrevision] at hsourced hsource
        simp only at hsourced
        rw [hsourced] at hnewest
        cases hnewest
        exact hsource rfl

/-- Removing an old revision keeps the invariant. -/
theorem Inv.compacting (hI : Inv format initial s) {id : Nat} {writer : StoreWriter P} (hw : s.writers.lookup id = some writer)
    {prepared : PreparedRevision P} {revision : Nat} {rest : List Nat} (hphase : writer.phase = .compacting prepared (revision :: rest)) :
    Inv format initial (({ s with directory := { s.directory with revisions := s.directory.revisions.erase revision } } :
      ProfileSystem P).goto id writer (.compacting prepared rest)) := by
  have hsound := hI.phases id writer hw
  have hheld : writer.phase.held = some prepared := by rw [hphase]; rfl
  have hprepares := hsound.held prepared hheld
  have hcompacts := hsound.compacting prepared _ hphase
  have hk := hI.keeps_compacting hw hphase
  refine hI.quiet id { writer with phase := .compacting prepared rest } {
    writers := rfl
    keeps := hk
    history := rfl
    sequences := fun _ => Nat.le_refl _
    temporaries := fun _ _ _ _ _ _ _ h => h
    files := fun r b h => by
      have h' : (s.directory.revisions.erase revision).lookup r = some b := h
      rw [FiniteMap.lookup_erase] at h'
      split at h'
      · cases h'
      · exact h'
    transaction := fun old hold => by
      rw [hw] at hold
      cases hold
      rfl
    sound := ?_
    names := fun q hq => .inl ⟨writer, hw, hheld.trans hq⟩
    fenced := ?_
    fencedBy := ?_ }
  · refine ⟨fun q hq => ?_, nofun, nofun, fun q r h => ?_, nofun, nofun⟩
    · cases hq
      have hkept : Prepares format (({ s with directory := { s.directory with revisions := s.directory.revisions.erase revision } } :
          ProfileSystem P).goto id writer (.compacting prepared rest)) writer prepared :=
        hprepares.keep hk (fun _ => Nat.le_refl _) (fun _ h => h)
      exact hkept.at _
    · cases h
      have hrest : Compacts s prepared rest := ⟨hcompacts.checked, fun d hd => hcompacts.older d (List.mem_cons_of_mem _ hd)⟩
      exact hrest.keep hk (fun _ h => h)
  · intro id' w' _ hw'
    have hfenced := hI.fenced _ _ _ _ hw hw'
    rw [hphase] at hfenced
    have hrest : Fenced s (.compacting prepared rest) w'.phase := hfenced
    exact hrest.keep hk (fun _ _ _ h => h)
  · intro id' w' _ hw'
    have hfenced := hI.fenced _ _ _ _ hw' hw
    rw [hphase] at hfenced
    have hrest : Fenced s w'.phase (.compacting prepared rest) := hfenced
    exact hrest.keep hk (fun _ _ _ h => h)

/-- A writer that can link its revision has the head it found, and its source is the newest valid revision. -/
theorem Inv.current_of_link (hI : Inv format initial s) {id : Nat} {writer : StoreWriter P} (hw : s.writers.lookup id = some writer)
    {prepared : PreparedRevision P} {remaining : List Nat} (hphase : writer.phase = .compacting prepared remaining)
    (habsent : s.directory.revisions.lookup prepared.revision = none) {bytes : List UInt8}
    (hbytes : s.directory.temporaries.lookup prepared.temporary = some bytes) (hfinite : FiniteVolumes format prepared.profile) :
    headRevision s.directory = prepared.snapshot.headRevision ∧ Sourced format s.directory prepared.snapshot ∧
      Grows format s.directory { s.directory with revisions := s.directory.revisions.insert prepared.revision bytes }
        prepared.revision (format.reread prepared.profile) := by
  have hsound := hI.phases id writer hw
  have hprepares := hsound.held prepared (by rw [hphase]; rfl)
  have hcompacts := hsound.compacting prepared _ hphase
  -- the writer has its temporary file and its revision is not there, so the head is the one it found
  have hhead : headRevision s.directory = prepared.snapshot.headRevision := by
    rcases hcompacts.checked (by rw [hbytes]; exact nofun) with hhead | hhead
    · exact hhead
    · exact absurd habsent (lookup_ne_none_of_head hhead)
  have hcurrent : Sourced format s.directory prepared.snapshot := by
    rcases hprepares.fits with hbehind | ⟨-, hsourced⟩
    · exact absurd hhead hbehind.ne
    · exact hsourced
  refine ⟨hhead, hcurrent, grows_insert hfinite (hprepares.bytes bytes hbytes) ?_⟩
  intro head hh
  rw [lt_nextRevision hprepares.next (hhead.symm.trans hh)]
  exact Nat.lt_succ_self head

/-- Publishing finite volumes keeps the invariant: a writer that can link its revision has the head it found. -/
theorem Inv.link (hI : Inv format initial s) {id : Nat} {writer : StoreWriter P} (hw : s.writers.lookup id = some writer)
    {prepared : PreparedRevision P} (hphase : writer.phase = .compacting prepared [])
    (hfinite : s.Publishes (.run id) prepared → FiniteVolumes format prepared.profile) :
    Inv format initial (s.link format id writer prepared) := by
  have hsound := hI.phases id writer hw
  have hheld : writer.phase.held = some prepared := by rw [hphase]; rfl
  have hprepares := hsound.held prepared hheld
  have hcompacts := hsound.compacting prepared _ hphase
  unfold ProfileSystem.link
  split
  · exact hI.goto_plain hw trivial
  · rename_i habsent
    split
    · exact hI.goto_plain hw trivial
    · rename_i bytes hbytes
      have hpublishes : s.Publishes (.run id) prepared := ⟨id, writer, rfl, hw, hphase, habsent, by rw [hbytes]; exact nofun⟩
      obtain ⟨hhead, hcurrent, hg⟩ := hI.current_of_link hw hphase habsent hbytes (hfinite hpublishes)
      have hgreater := hg.greater
      generalize hdirectory : ({ s.directory with revisions := s.directory.revisions.insert prepared.revision bytes } :
        ProfileDirectory) = directory at hg ⊢
      have htemporaries : directory.temporaries = s.directory.temporaries := by rw [← hdirectory]
      -- no writer that found an older head has its temporary file
      have hstale : ∀ id' w' p' remaining, s.writers.lookup id' = some w' → w'.phase = .compacting p' remaining →
          s.directory.temporaries.lookup p'.temporary ≠ none → p'.revision = prepared.revision := by
        intro id' w' p' remaining hw' hphase' hne
        have hsound' := hI.phases id' w' hw'
        rcases (hsound'.compacting p' remaining hphase').checked hne with hhead' | hhead'
        · have hnext := (hsound'.held p' (by rw [hphase']; rfl)).next
          rw [← hhead', hhead, hprepares.next] at hnext
          exact (Option.some.inj hnext).symm
        · have hfenced := hI.fenced _ _ _ _ hw hw'
          rw [hphase, hphase'] at hfenced
          cases hfenced prepared [] p' rfl rfl hhead hhead' hne
      -- a head that was found before is not the new one
      have hbefore : ∀ snapshot, Fits format s.directory snapshot → headRevision directory ≠ snapshot.headRevision := by
        intro snapshot hfits
        have hbehind : Behind format directory snapshot.headRevision :=
          hfits.elim (fun h => h.grow hg) (fun h => hg.behind h.1)
        exact hbehind.ne
      have hlegacy : directory.legacy = s.directory.legacy := hg.legacy
      constructor
      · -- the publisher is noted, and the others fit a directory that grows
        intro id' w' hw'
        simp only [FiniteMap.lookup_insert] at hw'
        split at hw'
        · rename_i hid
          cases hw'
          refine ⟨nofun, nofun, nofun, nofun, fun q hq => ?_, nofun⟩
          cases hq
          exact ⟨_, List.mem_append_right _ List.mem_cons_self, hid.symm, rfl, rfl⟩
        · have hsound' := hI.phases id' w' hw'
          have hnoted : ∀ revision profile, Noted s id' revision profile → ∃ publication ∈ s.history ++
              [⟨id, writer.attempt, newestValid format s.directory, prepared.revision, prepared.profile⟩],
                publication.writer = id' ∧ publication.revision = revision ∧ publication.profile = profile := by
            rintro revision profile ⟨publication, hmem, h⟩
            exact ⟨publication, List.mem_append_left _ hmem, h⟩
          refine ⟨fun q hq => ?_, fun head r hq => (hsound'.reading head r hq).grow hg,
            fun snapshot hq => (hsound'.loaded snapshot hq).grow hg, fun q r hq => ?_,
            fun q hq => hnoted _ _ (hsound'.published q hq), fun r q hq => hnoted _ _ (hsound'.committed r q hq)⟩
          · have h := hsound'.held q hq
            refine ⟨h.fits.grow hg, h.next, h.computed, h.destination, h.process, h.sequence, fun b hb => ?_⟩
            simp only [htemporaries] at hb
            exact h.bytes b hb
          · refine ⟨fun hne => .inr ?_, (hsound'.compacting q r hq).older⟩
            simp only [htemporaries] at hne
            rw [hstale id' w' q r hw' hq hne]
            exact hg.head
      · intro id₁ id₂ w₁ w₂ p₁ p₂ h₁ h₂ hp₁ hp₂ hname
        simp only [FiniteMap.lookup_insert] at h₁ h₂
        split at h₁
        · cases h₁
          cases hp₁
        · split at h₂
          · cases h₂
            cases hp₂
          · exact hI.names _ _ _ _ _ _ h₁ h₂ hp₁ hp₂ hname
      · intro id₁ id₂ w₁ w₂ h₁ _ p₁ remaining p₂ hp₁ _ hcontra
        simp only [FiniteMap.lookup_insert] at h₁
        split at h₁
        · cases h₁
          cases hp₁
        · exact absurd hcontra (hbefore _ ((hI.phases id₁ w₁ h₁).held p₁ (held_of_uncleaned hp₁)).fits)
      · intro publication hmem
        have hlookup : ∀ id' w', s.writers.lookup id' = some w' → ∃ w'',
            (s.writers.insert id { writer with phase := .published prepared }).lookup id' = some w'' ∧
              w''.transaction = w'.transaction := by
          intro id' w' hw'
          by_cases hid : id' = id
          · subst hid
            rw [hw] at hw'
            cases hw'
            exact ⟨{ writer with phase := .published prepared }, by rw [FiniteMap.lookup_insert, if_pos rfl], rfl⟩
          · exact ⟨w', by rw [FiniteMap.lookup_insert, if_neg hid, hw'], rfl⟩
        rcases List.mem_append.1 hmem with hmem | hmem
        · obtain ⟨w', hw', hcomputed⟩ := hI.computed publication hmem
          obtain ⟨w'', hw'', htransaction⟩ := hlookup _ _ hw'
          refine ⟨w'', hw'', ?_⟩
          rw [htransaction, hlegacy]
          exact hcomputed
        · obtain rfl := List.mem_singleton.1 hmem
          obtain ⟨w'', hw'', htransaction⟩ := hlookup _ _ hw
          refine ⟨w'', hw'', ?_⟩
          have hcomputed := hprepares.computed
          unfold Sourced at hcurrent
          cases hrevision : prepared.snapshot.revision with
          | some source =>
            rw [hrevision] at hcurrent hcomputed
            simp only at hcurrent ⊢
            rw [hcurrent, htransaction]
            exact hcomputed
          | none =>
            rw [hrevision] at hcurrent hcomputed
            simp only at hcurrent ⊢
            rw [hcurrent.1, htransaction, hlegacy]
            exact ⟨_, hcurrent.2, hcomputed⟩
      · refine List.isChain_append.2 ⟨hI.chain, .singleton _, fun older holder newer hnewer => ?_⟩
        cases hnewer
        obtain ⟨hh, hv⟩ := hI.last older holder
        exact ⟨newestValid_of_head hh hv, hgreater _ hh⟩
      · intro publication hlast
        rw [List.getLast?_concat] at hlast
        cases hlast
        exact ⟨hg.head, hg.valid⟩
      · intro publication hmem revision b hr
        rcases List.mem_append.1 hmem with hmem | hmem
        · exact hI.fresh publication hmem revision b hr
        · obtain rfl := List.mem_singleton.1 hmem
          obtain ⟨h, hh, hle⟩ := hI.begun revision b hr
          exact Nat.lt_of_le_of_lt hle (hgreater h hh)
      · intro revision b hr
        obtain ⟨h, hh, hle⟩ := hI.begun revision b hr
        exact ⟨_, hg.head, Nat.le_of_lt (Nat.lt_of_le_of_lt hle (hgreater h hh))⟩
      · intro revision b hr
        rw [← hdirectory] at hr
        simp only [FiniteMap.lookup_insert] at hr
        split at hr
        · rename_i heq
          cases hr
          exact .inr ⟨_, List.mem_append_right _ List.mem_cons_self, heq.symm, hprepares.bytes _ hbytes⟩
        · rcases hI.files revision b hr with h | ⟨publication, hmem, h⟩
          · exact .inl h
          · exact .inr ⟨publication, List.mem_append_left _ hmem, h⟩

/-! ## Every step -/

/-- A new writer keeps the invariant. -/
theorem Inv.begin (hI : Inv format initial s) {id : Nat} (hnone : s.writers.lookup id = none) {writer : StoreWriter P}
    (hplain : StorePhase.Plain writer.phase) : Inv format initial (s.setWriter id writer) := by
  obtain ⟨hheld, huncleaned, hchecked⟩ := plain_cases hplain
  exact hI.quiet id writer {
    writers := rfl
    keeps := Keeps.of_revisions rfl rfl
    history := rfl
    sequences := fun _ => Nat.le_refl _
    temporaries := fun _ _ _ _ _ _ _ h => h
    files := fun _ _ h => h
    transaction := fun old hold => by
      rw [hnone] at hold
      cases hold
    sound := phaseSound_of_plain hplain
    names := fun p hp => by
      rw [hheld] at hp
      cases hp
    fenced := fun _ _ _ _ => fenced_of_uncleaned huncleaned
    fencedBy := fun _ _ _ _ => fenced_of_checked hchecked }

/-- A writer that ends or starts again without removing its temporary file keeps the invariant. -/
theorem Inv.setWriter (hI : Inv format initial s) {id : Nat} {writer writer' : StoreWriter P} (hw : s.writers.lookup id = some writer)
    (htransaction : writer'.transaction = writer.transaction) (hheld : writer'.phase.held = none)
    (hsound : PhaseSound format s id writer') (huncleaned : writer'.phase.uncleaned = none) (hchecked : writer'.phase.checked = none) :
    Inv format initial (s.setWriter id writer') := by
  have hnot : ∀ {α : Prop} (p : PreparedRevision P), writer'.phase.held = some p → α := by
    intro α p hp
    rw [hheld] at hp
    cases hp
  exact hI.quiet id writer' {
    writers := rfl
    keeps := Keeps.of_revisions rfl rfl
    history := rfl
    sequences := fun _ => Nat.le_refl _
    temporaries := fun _ _ _ _ _ _ _ h => h
    files := fun _ _ h => h
    transaction := fun old hold => by
      rw [hw] at hold
      cases hold
      exact htransaction
    sound := ⟨fun p hp => hnot p hp, hsound.reading, hsound.loaded, fun p r hp => hnot p (by rw [hp]; rfl), hsound.published,
      hsound.committed⟩
    names := fun p hp => hnot p hp
    fenced := fun _ _ _ _ => fenced_of_uncleaned huncleaned
    fencedBy := fun _ _ _ _ => fenced_of_checked hchecked }

/-- A writer that takes its next step keeps the invariant. -/
theorem Inv.advance (hI : Inv format initial s) {id : Nat} {writer : StoreWriter P} (hw : s.writers.lookup id = some writer)
    (h : s.advance format id writer = some t)
    (hfinite : ∀ prepared, s.Publishes (.run id) prepared → FiniteVolumes format prepared.profile) : Inv format initial t := by
  have hsound := hI.phases id writer hw
  unfold ProfileSystem.advance at h
  cases hphase : writer.phase with
  | listing goal =>
    rw [hphase] at h
    cases h
    exact hI.listing hw hphase
  | cleaning goal remaining =>
    rw [hphase] at h
    cases remaining with
    | nil =>
      cases h
      exact hI.list hw hphase
    | cons name rest =>
      have hstep := hI.cleaning_cons hw hphase
      simp only at h
      split at h <;> rename_i hlookup
      · rw [if_pos hlookup] at hstep
        cases h
        exact hstep
      · rw [if_neg hlookup] at hstep
        cases h
        exact hstep
  | removing goal name rest =>
    rw [hphase] at h
    cases h
    exact hI.removing hw hphase
  | reading head remaining =>
    rw [hphase] at h
    cases h
    exact hI.read hw hphase
  | loaded snapshot =>
    rw [hphase] at h
    cases h
    exact hI.prepare hw hphase
  | compacting prepared remaining =>
    rw [hphase] at h
    cases remaining with
    | nil =>
      cases h
      exact hI.link hw hphase (hfinite prepared)
    | cons revision rest =>
      cases h
      exact hI.compacting hw hphase
  | discarding name retry =>
    rw [hphase] at h
    cases h
    have hplain := plain_afterDiscarding writer retry
    exact hI.removeTemporary (afterDiscarding writer retry) hw (transaction_afterDiscarding writer retry)
        (plain_cases hplain).1 (phaseSound_of_plain hplain) name
  | published prepared =>
    rw [hphase] at h
    cases h
    have hnoted := hsound.published prepared hphase
    exact hI.removeTemporary { writer with phase := .finished (.committed prepared.revision prepared.profile) } hw rfl rfl
        (phaseSound_committed hnoted) prepared.temporary
  | finished outcome =>
    rw [hphase] at h
    cases h

/-- A writer that cannot remove its temporary file keeps the invariant. -/
theorem Inv.left (hI : Inv format initial s) {id : Nat} {writer : StoreWriter P} (hw : s.writers.lookup id = some writer)
    (h : s.left id writer = some t) : Inv format initial t := by
  unfold ProfileSystem.left at h
  split at h
  · rename_i name retry _
    cases h
    have hplain := plain_afterDiscarding writer retry
    obtain ⟨hheld, huncleaned, hchecked⟩ := plain_cases hplain
    exact hI.setWriter hw (transaction_afterDiscarding writer retry) hheld (phaseSound_of_plain hplain) huncleaned hchecked
  · rename_i prepared hphase
    cases h
    have hnoted := (hI.phases id writer hw).published prepared hphase
    exact hI.setWriter hw (by rfl) (by rfl) (phaseSound_committed hnoted) (by rfl) (by rfl)
  · cases h

/-- A writer with a failing operation keeps the invariant. -/
theorem Inv.failed (hI : Inv format initial s) {id : Nat} {writer : StoreWriter P} (hw : s.writers.lookup id = some writer)
    (h : s.failed id writer = some t) : Inv format initial t := by
  unfold ProfileSystem.failed at h
  split at h <;> cases h <;> exact hI.goto_plain hw trivial

/-- A step that publishes finite volumes only keeps the invariant. -/
theorem Inv.step (hI : Inv format initial s) {event : StoreEvent P} (h : s.FiniteStep format event t) : Inv format initial t := by
  obtain ⟨h, hfinite⟩ := h
  unfold ProfileSystem.Step at h
  cases event with
  | begin id process transaction =>
    simp only [ProfileSystem.next] at h
    split at h
    · rename_i hnone
      cases h
      exact hI.begin hnone trivial
    · cases h
  | run id =>
    obtain ⟨writer, hw, h⟩ := Option.bind_eq_some_iff.1 h
    exact hI.advance hw h hfinite
  | leave id =>
    obtain ⟨writer, hw, h⟩ := Option.bind_eq_some_iff.1 h
    exact hI.left hw h
  | fail id =>
    obtain ⟨writer, hw, h⟩ := Option.bind_eq_some_iff.1 h
    exact hI.failed hw h
  | stop id =>
    obtain ⟨writer, hw, h⟩ := Option.bind_eq_some_iff.1 h
    split at h
    · cases h
    · cases h
      exact hI.goto_plain hw trivial
  | elsewhere process =>
    cases h
    refine hI.useSequences (fun p => ?_)
    split <;> omega

/-- A system before any writer began keeps the invariant. -/
theorem inv_of_initial (h : s.Initial) : Inv format s.directory s := by
  obtain ⟨hwriters, hhistory⟩ := h
  have hnone : ∀ id writer, s.writers.lookup id ≠ some writer := by
    intro id writer
    rw [hwriters, AList.lookup_empty]
    exact nofun
  constructor
  · exact fun id writer hw => absurd hw (hnone id writer)
  · exact fun id _ writer _ _ _ hw => absurd hw (hnone id writer)
  · exact fun id _ writer _ hw => absurd hw (hnone id writer)
  · rw [hhistory]
    exact nofun
  · rw [hhistory]
    exact .nil
  · rw [hhistory]
    exact nofun
  · rw [hhistory]
    exact nofun
  · intro revision bytes hr
    cases hh : headRevision s.directory with
    | none =>
      rw [headRevision_eq_none.1 hh revision] at hr
      cases hr
    | some head => exact ⟨head, rfl, (headRevision_eq_some.1 hh).2 revision bytes hr⟩
  · exact fun revision bytes hr => .inl hr

end ProfileStore

end P5136
