import TwinLedger.Proofs.Block.Verdict
import TwinLedger.Proofs.World.Difference

/-!
# Reports explain mismatches

The report of a disagreement lists the differences of two worlds. They are the worlds that the
comparison has finalised, so that what differs in their roots or in their contents is on the list:

> `diff_explains`: a report of different roots lists a difference, and a report of different
> contents lists one unless the worlds differ in their stamps only.

A finalised world has one layer of accounts and no refund (`World.eq_prepare_of_diff`), so its
accounts, its logs and its stamp are all there is, and the root is a hash over the accounts alone.
-/

namespace TwinLedger

/-! ## Finalised worlds -/

namespace World

/-- Finalised worlds without a difference have the same finalised layer. -/
theorem finalised_of_diff {v w : World} {deleteEmpty : Bool}
    (h : (v.finalise deleteEmpty).diff (w.finalise deleteEmpty) = []) :
    (v.finalise deleteEmpty).finalised = (w.finalise deleteEmpty).finalised :=
  -- Nothing is pending, so the two layers together are the finalised one.
  (diff_eq_nil_iff.1 h).1

/-- Finalised worlds without a difference differ in their stamps at most. -/
theorem eq_prepare_of_diff {v w : World} {deleteEmpty : Bool} :
    (v.finalise deleteEmpty).diff (w.finalise deleteEmpty) = [] ↔
      v.finalise deleteEmpty = (w.finalise deleteEmpty).prepare v.stamp := by
  constructor
  · intro h
    have hlogs : v.logs = w.logs := (diff_eq_nil_iff.1 h).2.2
    refine ext_pending ?_ ?_ hlogs rfl rfl
    · exact finalised_of_diff h
    · exact fun a => rfl
  · intro h
    rw [diff_eq_nil_iff, h]
    exact ⟨rfl, rfl, rfl⟩

end World

/-! ## What was compared -/

theorem compareWorlds_eq_some {alternate reference : World} {m : Mismatch}
    (h : compareWorlds alternate reference = some m) :
    (m.check = .intermediateRoot ∧ alternate.root ≠ reference.root) ∨
      (m.check = .state ∧ alternate ≠ reference) := by
  unfold compareWorlds at h
  split at h
  · next hroot =>
    cases h
    exact Or.inl ⟨rfl, hroot⟩
  · split at h
    · next hstate =>
      cases h
      exact Or.inr ⟨rfl, hstate⟩
    · cases h

/-- A difference of roots or contents was found in the worlds that the comparison finalised. -/
theorem compareWorlds_of_disagreement? {deleteEmpty : Bool} {a r : Applied} {d : Disagreement}
    (h : disagreement? deleteEmpty a r = some d)
    (hcheck : d.mismatch.check = .intermediateRoot ∨ d.mismatch.check = .state) :
    d.alternate = a.live.world.finalise deleteEmpty ∧
    d.reference = r.live.world.finalise deleteEmpty ∧
    compareWorlds d.alternate d.reference = some d.mismatch := by
  unfold disagreement? at h
  cases houtcomes : compareOutcomes a r with
  | some m =>
    rw [houtcomes] at h
    cases h
    -- The outcomes are compared by other checks.
    have hfound := check_compareOutcomes deleteEmpty a r
    rw [houtcomes] at hfound
    have hmem : m.check ∈ [MismatchCheck.gasUsed, .receipt, .errorText] :=
      List.mem_of_find?_eq_some hfound.symm
    have hworlds : m.check = .intermediateRoot ∨ m.check = .state := hcheck
    rcases hworlds with hcheck | hcheck <;> rw [hcheck] at hmem <;> exact absurd hmem (by decide)
  | none =>
    rw [houtcomes] at h
    obtain ⟨m, hm, rfl⟩ := Option.map_eq_some_iff.1 h
    exact ⟨rfl, rfl, hm⟩

/-! ## The report -/

/-- What the lines of a report say of the two worlds after they are finalised. -/
structure Explained (alternate reference : World) (check : MismatchCheck)
    (lines : List String) : Prop where
  root : check = .intermediateRoot → lines ≠ []
  state : check = .state → alternate ≠ reference ∧
    (lines = [] ↔ alternate = reference.prepare alternate.stamp)

theorem explained_of_disagreement? {deleteEmpty : Bool} {a r : Applied} {d : Disagreement}
    (h : disagreement? deleteEmpty a r = some d) (header : Header) (tx : Transaction) :
    Explained (a.live.world.finalise deleteEmpty) (r.live.world.finalise deleteEmpty)
      d.mismatch.check (d.bundle header tx a r).report.diff := by
  have hlines : (d.bundle header tx a r).report.diff =
      (d.alternate.diff d.reference).map Difference.text := rfl
  rw [hlines]
  refine ⟨fun hroot => ?_, fun hstate => ?_⟩
  · obtain ⟨halternate, hreference, hfound⟩ := compareWorlds_of_disagreement? h (Or.inl hroot)
    rcases compareWorlds_eq_some hfound with ⟨-, hne⟩ | ⟨hcheck, -⟩
    · intro hnone
      rw [List.map_eq_nil_iff, halternate, hreference] at hnone
      apply hne
      rw [halternate, hreference, World.root, World.root, World.finalised_of_diff hnone]
    · rw [hroot] at hcheck
      cases hcheck
  · obtain ⟨halternate, hreference, hfound⟩ := compareWorlds_of_disagreement? h (Or.inr hstate)
    rcases compareWorlds_eq_some hfound with ⟨hcheck, -⟩ | ⟨-, hne⟩
    · rw [hstate] at hcheck
      cases hcheck
    · rw [halternate, hreference] at hne ⊢
      exact ⟨hne, List.map_eq_nil_iff.trans World.eq_prepare_of_diff⟩

/-- A refusal has a disagreement of the two runs behind it, and the bundle of that is written. -/
theorem disagreement_of_verify {chain : Chain} {executors : Executors}
    {location : DiagnosticsLocation} {author : Option Address} {header : Header}
    {tx : Transaction} {live : Live} {disk written : Disk} {e : ProcessError}
    (h : verify chain executors location author header tx live disk = .ok (.error e, written)) :
    ∃ a r d,
      applyWith chain executors.alternate author header tx live = .ok a ∧
      applyWith chain executors.reference author header tx live = .ok r ∧
      disagreement? (chain.config.isEip158 header.number) a r = some d ∧
      e.mismatch? = some d.mismatch ∧
      written = ((d.bundle header tx a r).write location disk).2 := by
  unfold verify at h
  obtain ⟨a, ha, h⟩ := exists_of_bind h
  obtain ⟨r, hr, h⟩ := exists_of_bind h
  split at h
  · cases h
  · next d hd =>
    refine ⟨a, r, d, ha, hr, hd, ?_⟩
    split at h <;> next hwrite =>
      cases h
      rw [hwrite]
      exact ⟨rfl, rfl⟩

/-- The list of differences is empty exactly between equal contents and as long from either side.
So for any two executors, a report of different roots lists a difference, and a report of different
contents lists one unless the two worlds differ only in the stamp for new logs. -/
theorem diff_explains :
    (∀ l r : World,
      ((l.diff r).map Difference.text = [] ↔
        l.accounts = r.accounts ∧ l.refund = r.refund ∧ l.logs = r.logs) ∧
      ((r.diff l).map Difference.text).length = ((l.diff r).map Difference.text).length) ∧
    ∀ (chain : Chain) (executors : Executors) (location : DiagnosticsLocation)
      (author : Option Address) (header : Header) (tx : Transaction) (live : Live)
      (disk written : Disk) (e : ProcessError),
      verify chain executors location author header tx live disk = .ok (.error e, written) →
      ∃ a r d,
        applyWith chain executors.alternate author header tx live = .ok a ∧
        applyWith chain executors.reference author header tx live = .ok r ∧
        disagreement? (chain.config.isEip158 header.number) a r = some d ∧
        e.mismatch? = some (d.bundle header tx a r).report.mismatch ∧
        written = ((d.bundle header tx a r).write location disk).2 ∧
        Explained (a.live.world.finalise (chain.config.isEip158 header.number))
          (r.live.world.finalise (chain.config.isEip158 header.number)) d.mismatch.check
          (d.bundle header tx a r).report.diff := by
  refine ⟨fun l r => ⟨List.map_eq_nil_iff.trans World.diff_eq_nil_iff, ?_⟩, ?_⟩
  · rw [World.diff_swap, List.length_map, List.length_map, List.length_map]
  · intro chain executors location author header tx live disk written e h
    obtain ⟨a, r, d, ha, hr, hd, hmismatch, hwritten⟩ := disagreement_of_verify h
    exact ⟨a, r, d, ha, hr, hd, hmismatch, hwritten, explained_of_disagreement? hd header tx⟩

/-! ## An example -/

/-- Does nothing but to give new logs another block number, and reports the gas of a transfer. -/
def restamping : TotalExecutor := fun _ _ w pool =>
  ⟨.ok ⟨[], 21000, false⟩, w.prepare { w.stamp with blockNumber := 1 }, pool⟩

/-- The one disagreement that no line explains: the contents differ in their stamps. -/
theorem diff_explains_restamping :
    ∃ e written,
      verify plainChain ⟨idle.executor, restamping.executor⟩ ⟨"home", "space"⟩ none {}
        neutralTransaction plainLive {} = .ok (.error e, written) ∧
      ∃ a r d,
        applyWith plainChain restamping.executor none {} neutralTransaction plainLive = .ok a ∧
        applyWith plainChain idle.executor none {} neutralTransaction plainLive = .ok r ∧
        disagreement? false a r = some d ∧
        e.mismatch? = some (d.bundle {} neutralTransaction a r).report.mismatch ∧
        written = ((d.bundle {} neutralTransaction a r).write ⟨"home", "space"⟩ {}).2 ∧
        Explained (a.live.world.finalise false) (r.live.world.finalise false) d.mismatch.check
          (d.bundle {} neutralTransaction a r).report.diff ∧
        d.mismatch.check = .state ∧ (d.bundle {} neutralTransaction a r).report.diff = [] := by
  obtain ⟨message, hmessage⟩ := exists_neutralMessage
  let executors : Executors := ⟨idle.executor, restamping.executor⟩
  have hused : plainLive.usedGas.add 21000 = .ok 21000 := rfl
  have ha : applyWith plainChain executors.alternate none {} neutralTransaction plainLive.copy =
      .ok _ :=
    applyWith_of_appliedAs (.included hmessage rfl rfl hused)
  have hr : applyWith plainChain executors.reference none {} neutralTransaction plainLive.copy =
      .ok _ :=
    applyWith_of_appliedAs (.included hmessage rfl rfl hused)
  generalize hleft : (Applied.mk _ _ : Applied) = a at ha
  generalize hright : (Applied.mk _ _ : Applied) = r at hr
  have houtcome : a.outcome = r.outcome := by
    rw [← hleft, ← hright]
    rfl
  have hworld : a.live.world.finalise false =
      (r.live.world.finalise false).prepare (a.live.world.finalise false).stamp := by
    rw [← hleft, ← hright]
    rfl
  have hne : a.live.world.finalise false ≠ r.live.world.finalise false := by
    rw [← hleft, ← hright]
    intro heq
    have hnumber : (1 : U64) = 0 := congrArg (·.stamp.blockNumber) heq
    exact absurd hnumber (by decide)
  have hroot : (a.live.world.finalise false).root = (r.live.world.finalise false).root := by
    rw [hworld]
    rfl
  -- The stamps are part of the contents, and of nothing that is compared before.
  have hstate : checkOrder.find? (differs false a r) = some .state := by
    simp [checkOrder, differs, Applied.gasUsed, Applied.receipt?, Applied.error?, houtcome,
      Applied.contents, WorldState.contents_world, hroot, hne]
  obtain ⟨d, hd, hcheck⟩ := Option.map_eq_some_iff.1 ((check_disagreement? false a r).trans hstate)
  obtain ⟨e, written, hverify, -⟩ := verify_of_disagreement ha hr hd ⟨"home", "space"⟩ {}
  obtain ⟨a', r', d', ha', hr', hd', hmismatch, hwritten, hexplained⟩ := diff_explains.2 plainChain
    executors ⟨"home", "space"⟩ none {} neutralTransaction plainLive {} written e hverify
  cases Except.ok.inj (ha.symm.trans ha')
  cases Except.ok.inj (hr.symm.trans hr')
  cases Option.some.inj (hd.symm.trans hd')
  exact ⟨e, written, hverify, a, r, d, ha, hr, hd, hmismatch, hwritten, hexplained, hcheck,
    (hexplained.state hcheck).2.2 hworld⟩

end TwinLedger
