import Mathlib.Data.List.Forall2
import Mathlib.Data.List.TakeWhile
import TwinLedger.Proofs.Block.Verdict
import TwinLedger.Proofs.Diagnostics.FileName
import TwinLedger.Proofs.Json.Forms

/-!
# What a disagreement leaves on the disk

The files of a bundle have different names, and each name is good for a path. So nothing that is
written gets in the way of what is written after it, and the writing goes on up to the first name
that is refused (`Bundle.writeFiles_eq`). What a file tells is what is read in its text
(`Artifact.ReadIn`):

> either all files of the bundle exist and the error is the mismatch, or those before the first
> refused one exist and the error carries the mismatch and the path, and in each file that exists
> the summary, the header, the transaction, the log or the receipt is read that it is named after
> (`verify_writes_bundle`).
-/

namespace TwinLedger

/-! ## Writing -/

theorem Bundle.writeFiles_cons (directory name : String) (content : Json)
    (rest : List (String × Json)) (d : Disk) :
    writeFiles directory ((name, content) :: rest) d =
      match d.makeFile? (Path.join directory name) content.pretty with
      | none => (.error (.file (Path.join directory name)), d)
      | some d' => writeFiles directory rest d' := by
  exact rfl

/-- The writing ends at the first name that is refused, and the texts before it are there. -/
theorem Bundle.writeFiles_eq {directory : String} (refused : String → Bool)
    (files : List (String × Json)) {d : Disk} (hd : d.HasDirectory directory)
    (hnames : ∀ f ∈ files, Path.IsName f.1)
    (hrefused : ∀ f ∈ files, d.refuses directory f.1 = refused f.1)
    (hnodup : (files.map (·.1)).Nodup)
    (hfree : ∀ f ∈ files, ∀ t ∈ d.files, t.1 ≠ Path.components directory ++ [f.1]) :
    writeFiles directory files d =
      (match files.find? (refused ·.1) with
        | none => .ok ()
        | some f => .error (.file (Path.join directory f.1)),
      d.addTexts directory
        ((files.takeWhile (!refused ·.1)).map fun f => (f.1, f.2.pretty))) := by
  induction files generalizing d with
  | nil =>
    rw [List.find?_nil, List.takeWhile_nil, List.map_nil, Disk.addTexts_nil]
    rfl
  | cons f rest ih =>
    obtain ⟨name, content⟩ := f
    rw [List.forall_mem_cons] at hnames hrefused hfree
    rw [List.map_cons, List.nodup_cons] at hnodup
    have hmake : d.makeFile? (Path.join directory name) content.pretty =
        if refused name then none else some (d.addTexts directory [(name, content.pretty)]) := by
      rw [Disk.makeFile?_eq hd hnames.1 hfree.1, hrefused.1]
    rw [writeFiles_cons, hmake]
    cases hname : refused name with
    | true => simp [hname]
    | false =>
      have hnext := hd.addText hnames.1 (hrefused.1.trans hname) content.pretty
      have hrefused' : ∀ f ∈ rest,
          (d.addTexts directory [(name, content.pretty)]).refuses directory f.1 = refused f.1 :=
        fun f hf => (Disk.refuses_addTexts hd hnext (hnames.2 f hf)).trans (hrefused.2 f hf)
      -- The text that was made has none of the names to come.
      have hfree' : ∀ f ∈ rest, ∀ t ∈ (d.addTexts directory [(name, content.pretty)]).files,
          t.1 ≠ Path.components directory ++ [f.1] := by
        intro f hf t ht heq
        rcases List.mem_append.1 ht with ht | ht
        · exact hfree.2 f hf t ht heq
        · rw [List.mem_singleton.1 ht] at heq
          have hsame : name = f.1 := List.singleton_inj.1 (List.append_cancel_left heq)
          exact hnodup.1 (List.mem_map.2 ⟨f, hf, hsame.symm⟩)
      simp only [Bool.false_eq_true, if_false]
      rw [ih hnext hnames.2 hrefused' hnodup.2 hfree', Disk.addTexts_addTexts]
      simp [hname]

/-! ## What the files tell -/

/-- What a file of a bundle is written for. -/
inductive Artifact where
  | summary (report : DiagnosticReport)
  | header (header : Header)
  | transaction (tx : Transaction)
  | log (seat : Seat) (i : Nat) (log : Log)
  | receipt (seat : Seat) (receipt : Receipt)

namespace Artifact

def name : Artifact → FileName
  | summary _ => .summary
  | header _ => .header
  | transaction _ => .transaction
  | log seat i _ => .log seat i
  | receipt seat _ => .receipt seat

/-- The artifact is what a text is read as. -/
def ReadIn (text : String) : Artifact → Prop
  | summary report => DiagnosticReport.decoder.parse? text = some report
  | header h => Header.decoder.parse? text = some h
  | transaction tx => Transaction.decoder.parse? text = some tx
  | log _ _ l => Log.decoder.parse? text = some l
  | receipt _ r => Receipt.decoder.parse? text = some r

/-- A file has the name of the artifact, and the artifact is read in it. -/
def IsIn (x : Artifact) (file : String × String) : Prop := file.1 = x.name.text ∧ x.ReadIn file.2

/-- The name and the form under which an artifact is written. -/
def file : Artifact → String × Json
  | summary report => (FileName.summary.text, report.form)
  | header h => (FileName.header.text, h.form)
  | transaction tx => (FileName.transaction.text, tx.form)
  | log seat i l => ((FileName.log seat i).text, l.form)
  | receipt seat r => ((FileName.receipt seat).text, r.form)

theorem name_file (x : Artifact) : x.file.1 = x.name.text := by
  cases x <;> rfl

theorem isIn_file (x : Artifact) : x.IsIn (x.file.1, x.file.2.pretty) := by
  refine ⟨x.name_file, ?_⟩
  cases x with
  | summary report => exact report.reads.parse?_pretty
  | header h => exact h.reads.parse?_pretty
  | transaction tx => exact tx.reads.parse?_pretty
  | log seat i l => exact l.reads.parse?_pretty
  | receipt seat r => exact r.reads.parse?_pretty

theorem isIn_files (xs : List Artifact) :
    List.Forall₂ IsIn xs ((xs.map file).map fun f => (f.1, f.2.pretty)) := by
  rw [List.map_map]
  exact List.forall₂_map_right_iff.2 (List.forall₂_same.2 fun x _ => x.isIn_file)

end Artifact

/-! ## The files of a bundle -/

/-- How a side ended: with its gas, or with no gas and the text of its error. -/
def Applied.ending {σ : Type} (a : Applied σ) : BranchReport :=
  match a.outcome with
  | .ok (_, gas) => ⟨gas, none⟩
  | .error e => ⟨0, some e.message⟩

theorem Applied.report_eq_ending {σ : Type} (a : Applied σ) : a.report = a.ending := by
  unfold report gasUsed error? ending
  cases a.outcome <;> rfl

section

variable {σ : Type} [WorldState σ]

/-- What is written about one side, in order: its logs of the transaction, and its receipt if it has
one. -/
def Applied.artifacts (a : Applied σ) (seat : Seat) (txHash : Hash) : List Artifact :=
  ((a.contents.logs.filter (·.txHash == txHash)).zipIdx.map fun (log, i) => .log seat i log) ++
    match a.outcome with
    | .ok (receipt, _) => [.receipt seat receipt]
    | .error _ => []

/-- What is written about two sides, in order. -/
def bundleArtifacts (summary : DiagnosticReport) (header : Header) (tx : Transaction)
    (alternate reference : Applied σ) : List Artifact :=
  [.summary summary, .header header, .transaction tx] ++
    (alternate.artifacts .alternate tx.hash ++ reference.artifacts .reference tx.hash)

theorem Applied.names_artifacts (a : Applied σ) (seat : Seat) (txHash : Hash) :
    (a.artifacts seat txHash).map Artifact.name =
      FileName.ofSide seat (a.contents.logs.filter (·.txHash == txHash)).length
        a.outcome.isOk := by
  generalize hlogs : a.contents.logs.filter (·.txHash == txHash) = logs
  have hnames : logs.zipIdx.map (fun f => FileName.log seat f.2) =
      (List.range logs.length).map (FileName.log seat) := by
    rw [List.range_eq_range', ← List.zipIdx_map_snd, List.map_map]
    rfl
  unfold artifacts FileName.ofSide
  rw [hlogs, List.map_append, List.map_map]
  refine congrArg₂ _ hnames ?_
  cases a.outcome <;> rfl

/-- The files of a bundle have different names, all of them good for a path. -/
theorem names_bundleArtifacts (summary : DiagnosticReport) (header : Header) (tx : Transaction)
    (alternate reference : Applied σ) :
    ((bundleArtifacts summary header tx alternate reference).map (·.name.text)).Nodup := by
  have hnodup : ((bundleArtifacts summary header tx alternate reference).map
      Artifact.name).Nodup := by
    unfold bundleArtifacts
    rw [List.map_append, List.map_append, Applied.names_artifacts, Applied.names_artifacts]
    exact FileName.nodup_order _ _ _ _
  have hnames := hnodup.map fun m n h => FileName.text_inj.1 h
  rwa [List.map_map] at hnames

/-- The comparison leaves the logs of both sides alone. -/
theorem logs_of_disagreement? {deleteEmpty : Bool} {a r : Applied σ} {d : Disagreement}
    (h : disagreement? deleteEmpty a r = some d) :
    d.alternate.logs = a.contents.logs ∧ d.reference.logs = r.contents.logs := by
  unfold disagreement? at h
  split at h
  · cases h
    exact ⟨rfl, rfl⟩
  · obtain ⟨m, -, rfl⟩ := Option.map_eq_some_iff.1 h
    exact ⟨rfl, rfl⟩

theorem files_branch (a : Applied σ) (seat : Seat) (txHash : Hash) {w : World}
    (h : w.logs = a.contents.logs) :
    BranchArtifacts.files ⟨seat, w.logsOf txHash, a.receipt?⟩ =
      (a.artifacts seat txHash).map Artifact.file := by
  unfold BranchArtifacts.files Applied.artifacts Applied.receipt? World.logsOf
  rw [h, List.map_append, List.map_map]
  cases a.outcome <;> rfl

theorem files_bundle {deleteEmpty : Bool} {a r : Applied σ} {d : Disagreement}
    (h : disagreement? deleteEmpty a r = some d) (header : Header) (tx : Transaction) :
    (d.bundle header tx a r).files =
      (bundleArtifacts (d.bundle header tx a r).report header tx a r).map Artifact.file := by
  obtain ⟨halternate, hreference⟩ := logs_of_disagreement? h
  unfold Bundle.files bundleArtifacts
  rw [List.map_append, List.map_append, ← files_branch a _ _ halternate,
    ← files_branch r _ _ hreference]
  simp only [Disagreement.bundle, List.flatMap_cons, List.flatMap_nil, List.append_nil]
  rfl

end

/-! ## The verdict -/

/-- What a mismatch is documented with. -/
structure Documented {σ : Type} [WorldState σ] (directory : String) (opened : Disk)
    (header : Header) (tx : Transaction) (alternate reference : Applied σ) (m : Mismatch)
    (summary : DiagnosticReport) (verdict : Except ProcessError Unit) (written : Disk) : Prop where
  /-- The error has the mismatch, however the writing went. -/
  carries : ∃ e, verdict = .error e ∧ e.mismatch? = some m
  /-- The summary tells the transaction and the mismatch, and for each side its gas and its
  error. -/
  tells : summary.blockNumber = header.number ∧ summary.txHash = tx.hash ∧ summary.mismatch = m ∧
    summary.alternate = alternate.ending ∧ summary.reference = reference.ending
  /-- No two files have one name. -/
  nodup : ((bundleArtifacts summary header tx alternate reference).map (·.name.text)).Nodup
  /-- If no name is refused, the error is the mismatch, and all files are there. -/
  complete : (∀ x ∈ bundleArtifacts summary header tx alternate reference,
      opened.refuses directory x.name.text = false) →
    verdict = .error (.mismatch m) ∧
    List.Forall₂ Artifact.IsIn (bundleArtifacts summary header tx alternate reference)
      (written.filesUnder directory)
  /-- If one is, the error has the mismatch and the path of the first one, and the files before it
  are there. -/
  cut : ∀ before x after,
    bundleArtifacts summary header tx alternate reference = before ++ x :: after →
    (∀ y ∈ before, opened.refuses directory y.name.text = false) →
    opened.refuses directory x.name.text = true →
    verdict = .error (.diagnostics m
      { outermost := "unable to create " ++ Path.join directory x.name.text }) ∧
    List.Forall₂ Artifact.IsIn before (written.filesUnder directory)

section

variable {directory : String} {files : List (String × Json)} {d : Disk}
  (hd : d.HasDirectory directory) (hnames : ∀ f ∈ files, Path.IsName f.1)
  (hnodup : (files.map (·.1)).Nodup) (hempty : d.filesUnder directory = [])

include hd hnames hnodup hempty

theorem Bundle.writeFiles_of_empty :
    writeFiles directory files d =
      (match files.find? (d.refuses directory ·.1) with
        | none => .ok ()
        | some f => .error (.file (Path.join directory f.1)),
      d.addTexts directory
        ((files.takeWhile (!d.refuses directory ·.1)).map fun f => (f.1, f.2.pretty))) := by
  refine writeFiles_eq _ files hd hnames (fun f _ => rfl) hnodup fun f _ t ht heq => ?_
  have hunder := List.filterMap_eq_nil_iff.1 hempty t ht
  rw [heq, if_pos (List.isPrefixOf_iff_prefix.2 (List.prefix_append _ _))] at hunder
  cases hunder

theorem Bundle.writeFiles_of_accepted (h : ∀ f ∈ files, d.refuses directory f.1 = false) :
    writeFiles directory files d =
      (.ok (), d.addTexts directory (files.map fun f => (f.1, f.2.pretty))) := by
  have hnone : files.find? (d.refuses directory ·.1) = none :=
    List.find?_eq_none.2 fun f hf => by rw [h f hf]; exact Bool.false_ne_true
  have hall : files.takeWhile (!d.refuses directory ·.1) = files :=
    List.takeWhile_eq_self_iff.2 fun f hf => by rw [h f hf]; rfl
  rw [writeFiles_of_empty hd hnames hnodup hempty, hnone, hall]

theorem Bundle.writeFiles_of_refused {before after : List (String × Json)} {f : String × Json}
    (hfiles : files = before ++ f :: after)
    (hbefore : ∀ g ∈ before, d.refuses directory g.1 = false)
    (hf : d.refuses directory f.1 = true) :
    writeFiles directory files d = (.error (.file (Path.join directory f.1)),
      d.addTexts directory (before.map fun g => (g.1, g.2.pretty))) := by
  have hfirst : files.find? (d.refuses directory ·.1) = some f := by
    rw [hfiles]
    refine List.find?_eq_some_iff_append.2 ⟨hf, before, after, rfl, fun g hg => ?_⟩
    rw [hbefore g hg]
    rfl
  have hcut : files.takeWhile (!d.refuses directory ·.1) = before := by
    rw [hfiles, List.takeWhile_append_of_pos fun g hg => by rw [hbefore g hg]; rfl,
      List.takeWhile_cons_of_neg (by rw [hf]; exact Bool.false_ne_true), List.append_nil]
  rw [writeFiles_of_empty hd hnames hnodup hempty, hfirst, hcut]

end

/-- The error after a mismatch, by how the writing went. -/
def Mismatch.error (m : Mismatch) : Except BundleError Unit → ProcessError
  | .ok () => .mismatch m
  | .error e => .diagnostics m e.chain

theorem Mismatch.mismatch?_error (m : Mismatch) (outcome : Except BundleError Unit) :
    (m.error outcome).mismatch? = some m := by
  cases outcome <;> rfl

section

variable {σ : Type} [WorldState σ] {chain : Chain} {executors : Executors σ}
  {location : DiagnosticsLocation} {author : Option Address} {header : Header} {tx : Transaction}
  {live : Live σ} {disk opened : Disk} {a r : Applied σ} {d : Disagreement}
  (halternate : applyWith chain executors.alternate author header tx live.copy = .ok a)
  (hreference : applyWith chain executors.reference author header tx live.copy = .ok r)
  (hd : disagreement? (chain.config.isEip158 header.number) a r = some d)
  (hopened : disk.makeDirectory? (location.bundleDirectory header.number tx.hash) = some opened)

include halternate hreference hd hopened

theorem verify_of_opened :
    verify chain executors location author header tx live disk =
      (let wrote := Bundle.writeFiles (location.bundleDirectory header.number tx.hash)
        ((bundleArtifacts (d.bundle header tx a r).report header tx a r).map Artifact.file) opened
      .ok (.error (d.mismatch.error wrote.1), wrote.2)) := by
  have hwrite : (d.bundle header tx a r).write location disk =
      Bundle.writeFiles (location.bundleDirectory header.number tx.hash)
        ((bundleArtifacts (d.bundle header tx a r).report header tx a r).map Artifact.file)
        opened := by
    rw [← files_bundle hd]
    unfold Bundle.write
    simp only [Disagreement.bundle, hopened]
  unfold verify
  rw [halternate, hreference]
  simp only [bind, Except.bind, hd, hwrite]
  generalize Bundle.writeFiles _ _ opened = wrote
  obtain ⟨outcome, written⟩ := wrote
  cases outcome <;> rfl

/-- A disagreement is documented in its directory, if that is there and holds no texts. -/
theorem exists_documented
    (hempty : disk.filesUnder (location.bundleDirectory header.number tx.hash) = []) :
    ∃ verdict written,
      verify chain executors location author header tx live disk = .ok (verdict, written) ∧
      Documented (location.bundleDirectory header.number tx.hash) opened header tx a r
        d.mismatch (d.bundle header tx a r).report verdict written := by
  obtain ⟨hdirectory, hfiles⟩ := Disk.hasDirectory_of_makeDirectory? hopened
  have hempty' : opened.filesUnder (location.bundleDirectory header.number tx.hash) = [] := by
    rw [Disk.filesUnder, hfiles]
    exact hempty
  refine ⟨_, _, verify_of_opened halternate hreference hd hopened, ?_⟩
  generalize hsummary : (d.bundle header tx a r).report = summary
  have hnodup := names_bundleArtifacts summary header tx a r
  generalize hall : bundleArtifacts summary header tx a r = all at hnodup
  have hnames : ∀ f ∈ all.map Artifact.file, Path.IsName f.1 :=
    List.forall_mem_map.2 fun x _ => x.name_file ▸ x.name.isName_text
  have hnodup' : ((all.map Artifact.file).map (·.1)).Nodup := by
    rwa [List.map_map, List.map_congr_left (g := (·.name.text)) fun x _ => x.name_file]
  refine ⟨⟨_, rfl, Mismatch.mismatch?_error _ _⟩, ?_, by rwa [hall], ?_, ?_⟩
  · rw [← hsummary]
    exact ⟨rfl, rfl, rfl, a.report_eq_ending, r.report_eq_ending⟩
  · rw [hall]
    intro haccepted
    rw [Bundle.writeFiles_of_accepted hdirectory hnames hnodup' hempty'
      (List.forall_mem_map.2 fun x hx => x.name_file ▸ haccepted x hx), Disk.filesUnder_addTexts,
      hempty']
    exact ⟨rfl, Artifact.isIn_files all⟩
  · rw [hall]
    intro before x after hsplit hbefore hx
    have hsplit' : all.map Artifact.file =
        before.map Artifact.file ++ x.file :: after.map Artifact.file := by
      rw [hsplit, List.map_append, List.map_cons]
    rw [Bundle.writeFiles_of_refused hdirectory hnames hnodup' hempty' hsplit'
      (List.forall_mem_map.2 fun y hy => y.name_file ▸ hbefore y hy) (x.name_file ▸ hx),
      Disk.filesUnder_addTexts, hempty', x.name_file]
    exact ⟨rfl, Artifact.isIn_files before⟩

end

/-- For any two executors whose runs end, in a bundle directory that holds no texts, whichever
names it refuses: what passes the check writes nothing, and a disagreement is documented up to the
first name that is refused. -/
theorem verify_writes_bundle {σ : Type} [WorldState σ] (chain : Chain) (executors : Executors σ)
    (location : DiagnosticsLocation) (author : Option Address) (header : Header)
    (tx : Transaction) (live : Live σ) (disk opened : Disk)
    (hopened : disk.makeDirectory? (location.bundleDirectory header.number tx.hash) = some opened)
    (hempty : disk.filesUnder (location.bundleDirectory header.number tx.hash) = []) :
    (∃ fault, verify chain executors location author header tx live disk = .error fault ∧
      (applyWith chain executors.alternate author header tx live.copy = .error fault ∨
        applyWith chain executors.reference author header tx live.copy = .error fault)) ∨
    ∃ a r verdict written,
      applyWith chain executors.alternate author header tx live.copy = .ok a ∧
      applyWith chain executors.reference author header tx live.copy = .ok r ∧
      verify chain executors location author header tx live disk = .ok (verdict, written) ∧
      (verdict = .ok () → written = disk) ∧
      (disagreement? (chain.config.isEip158 header.number) a r = none → verdict = .ok ()) ∧
      ∀ d, disagreement? (chain.config.isEip158 header.number) a r = some d →
        Documented (location.bundleDirectory header.number tx.hash) opened header tx a r
          d.mismatch (d.bundle header tx a r).report verdict written := by
  rcases halternate : applyWith chain executors.alternate author header tx live.copy with fault | a
  · refine Or.inl ⟨fault, ?_, Or.inl rfl⟩
    unfold verify
    rw [halternate]
    rfl
  rcases hreference : applyWith chain executors.reference author header tx live.copy with fault | r
  · refine Or.inl ⟨fault, ?_, Or.inr rfl⟩
    unfold verify
    rw [halternate, hreference]
    rfl
  refine Or.inr ⟨a, r, ?_⟩
  cases hd : disagreement? (chain.config.isEip158 header.number) a r with
  | none =>
    have hverify := verify_of_agree halternate hreference hd location disk
    exact ⟨.ok (), disk, rfl, rfl, hverify, fun _ => rfl, fun _ => rfl, nofun⟩
  | some d =>
    obtain ⟨verdict, written, hverify, hdocumented⟩ :=
      exists_documented halternate hreference hd hopened hempty
    obtain ⟨e, he, -⟩ := hdocumented.carries
    refine ⟨verdict, written, rfl, rfl, hverify, ?_, nofun, ?_⟩
    · intro haccepted
      rw [he] at haccepted
      cases haccepted
    · intro d' hd'
      cases hd'
      exact hdocumented

/-- Logs an event and reports no gas. -/
def emitting : TotalExecutor := fun _ _ w pool =>
  ⟨.ok ⟨[], 0, false⟩, w.addLog { data := [7] }, pool⟩

/-- The empty world before the transaction, with its stamp for new logs. -/
def stampedLive : Live :=
  { plainLive with world := plainLive.world.prepare { txHash := neutralTransaction.hash } }

/-- The event as it is logged there. -/
def emittedLog : Log := { data := [7], txHash := neutralTransaction.hash }

theorem exists_applied_emitting :
    ∃ a receipt, applyWith plainChain emitting.executor none {} neutralTransaction
        stampedLive.copy = .ok a ∧
      a.outcome = .ok (receipt, 0) ∧
      a.artifacts .alternate neutralTransaction.hash =
        [.log .alternate 0 emittedLog, .receipt .alternate receipt] := by
  obtain ⟨message, hmessage⟩ := exists_neutralMessage
  have hused : stampedLive.copy.usedGas.add 0 = .ok 0 := rfl
  obtain ⟨receipt, ha⟩ := applyWith_of_result emitting.executor none stampedLive.copy hmessage
    (fun _ => rfl) hused
  refine ⟨_, receipt, ha, rfl, ?_⟩
  have hlog : [emittedLog].filter (·.txHash == neutralTransaction.hash) = [emittedLog] :=
    List.filter_eq_self.2 (List.forall_mem_singleton.2 (beq_self_eq_true neutralTransaction.hash))
  unfold Applied.artifacts
  generalize ha' : (Applied.mk _ _ : Applied) = a
  have hlogs : a.contents.logs = [emittedLog] := by
    rw [← ha']
    rfl
  rw [hlogs, hlog, ← ha']
  rfl

theorem exists_applied_idle :
    ∃ r receipt, applyWith plainChain idle.executor none {} neutralTransaction
        stampedLive.copy = .ok r ∧
      r.outcome = .ok (receipt, 21000) ∧
      r.artifacts .reference neutralTransaction.hash = [.receipt .reference receipt] := by
  obtain ⟨message, hmessage⟩ := exists_neutralMessage
  have hused : stampedLive.copy.usedGas.add 21000 = .ok 21000 := rfl
  obtain ⟨receipt, hr⟩ := applyWith_of_result idle.executor none stampedLive.copy hmessage
    (fun _ => rfl) hused
  exact ⟨_, receipt, hr, rfl, rfl⟩

/-- An empty disk takes the files that are written before the receipts. -/
theorem any_makeDirectory?_empty :
    let directory :=
      DiagnosticsLocation.bundleDirectory ⟨"home", "space"⟩ 0 neutralTransaction.hash
    (({} : Disk).makeDirectory? directory).any (fun free =>
      [FileName.summary, .header, .transaction, .log .alternate 0].all
        (!free.refuses directory ·.text)) = true := by
  decide +kernel

/-- With the name of one receipt taken by a directory, all files before it are written, a log among
them, and the error tells what failed beside the mismatch of the gas. -/
theorem verify_writes_bundle_emitting :
    let location : DiagnosticsLocation := ⟨"home", "space"⟩
    let directory := location.bundleDirectory 0 neutralTransaction.hash
    let disk := ({} : Disk).obstruct directory ["receipt-alternate.json"]
    ∃ opened, disk.makeDirectory? directory = some opened ∧ disk.filesUnder directory = [] ∧
    ∃ m written,
      verify plainChain ⟨idle.executor, emitting.executor⟩ location none {} neutralTransaction
        stampedLive disk = .ok (.error (.diagnostics m
          { outermost := "unable to create " ++ Path.join directory "receipt-alternate.json" }),
          written) ∧
      m.check = .gasUsed ∧
      ∃ summaryText headerText txText logText,
        written.filesUnder directory = [("summary.json", summaryText), ("header.json", headerText),
          ("tx.json", txText), ("logs-alternate-0.json", logText)] ∧
        (∃ summary, DiagnosticReport.decoder.parse? summaryText = some summary ∧
          summary.mismatch = m ∧ summary.alternate = ⟨0, none⟩ ∧
          summary.reference = ⟨21000, none⟩) ∧
        Header.decoder.parse? headerText = some {} ∧
        Transaction.decoder.parse? txText = some neutralTransaction ∧
        Log.decoder.parse? logText =
          some { data := [7], txHash := neutralTransaction.hash } := by
  intro location directory disk
  let before : List FileName := [.summary, .header, .transaction, .log .alternate 0]
  obtain ⟨free, hmade, hfree⟩ := (Option.any_eq_true _ _).1 any_makeDirectory?_empty
  obtain ⟨opened, hopened, hempty, hrefuses⟩ :=
    Disk.makeDirectory?_obstruct hmade ["receipt-alternate.json"]
  have hbefore : ∀ n ∈ before, opened.refuses directory n.text = false := by
    intro n hn
    refine eq_false_of_ne_true fun hrefused => ?_
    rcases (hrefuses _ n.isName_text).1 hrefused with hold | htaken
    · have hmade := List.all_eq_true.1 hfree n hn
      rw [hold] at hmade
      cases hmade
    · cases FileName.text_inj.1
        ((List.mem_singleton.1 htaken : n.text = (FileName.receipt .alternate).text))
      exact absurd hn (by decide)
  have hrefused : opened.refuses directory (FileName.receipt .alternate).text = true :=
    (hrefuses _ (FileName.receipt .alternate).isName_text).2 (Or.inr List.mem_cons_self)
  obtain ⟨a, receipt, ha, houtcome, hartifacts⟩ := exists_applied_emitting
  obtain ⟨r, receipt', hr, houtcome', hartifacts'⟩ := exists_applied_idle
  obtain ⟨d, hd, hcheck⟩ : ∃ d,
      disagreement? (plainChain.config.isEip158 ({} : Header).number) a r = some d ∧
        d.mismatch.check = .gasUsed := by
    have hgas : a.gasUsed ≠ r.gasUsed := by
      unfold Applied.gasUsed
      rw [houtcome, houtcome']
      show (0 : U64) ≠ 21000
      decide
    unfold disagreement? compareOutcomes
    rw [if_pos hgas]
    exact ⟨_, rfl, rfl⟩
  have hwrites := verify_writes_bundle plainChain ⟨idle.executor, emitting.executor⟩ location none
    {} neutralTransaction stampedLive disk opened hopened hempty
  rcases hwrites with
    ⟨fault, -, hfault⟩ | ⟨a', r', verdict, written, ha', hr', hverify, -, -, hwrites⟩
  · rcases hfault with hfault | hfault
    · cases ha.symm.trans hfault
    · cases hr.symm.trans hfault
  · cases Except.ok.inj (ha.symm.trans ha')
    cases Except.ok.inj (hr.symm.trans hr')
    have hdocumented := hwrites d hd
    generalize (d.bundle {} neutralTransaction a r).report = summary at hdocumented
    have hall : bundleArtifacts summary {} neutralTransaction a r =
        [.summary summary, .header {}, .transaction neutralTransaction,
          .log .alternate 0 emittedLog] ++
          .receipt .alternate receipt :: [.receipt .reference receipt'] := by
      unfold bundleArtifacts
      rw [hartifacts, hartifacts']
      rfl
    obtain ⟨hverdict, hfiles⟩ := hdocumented.cut _ _ _ hall
      (fun x hx => hbefore x.name (List.mem_map_of_mem hx)) hrefused
    obtain ⟨-, -, hmismatch, hends, hends'⟩ := hdocumented.tells
    have hending : a.ending = ⟨0, none⟩ := by
      unfold Applied.ending
      rw [houtcome]
    have hending' : r.ending = ⟨21000, none⟩ := by
      unfold Applied.ending
      rw [houtcome']
    generalize hwritten : written.filesUnder _ = files at hfiles
    obtain _ | ⟨hsummary, _ | ⟨hheader, _ | ⟨htx, _ | ⟨hlog, _ | _⟩⟩⟩⟩ := hfiles
    rw [hverdict] at hverify
    refine ⟨opened, hopened, hempty, d.mismatch, written, hverify, hcheck, _, _, _, _,
      hwritten.trans ?_, ⟨summary, hsummary.2, hmismatch, hends.trans hending,
        hends'.trans hending'⟩, hheader.2, htx.2, hlog.2⟩
    exact congrArg₂ List.cons (Prod.ext hsummary.1 rfl) (congrArg₂ List.cons
      (Prod.ext hheader.1 rfl) (congrArg₂ List.cons (Prod.ext htx.1 rfl)
        (congrArg₂ List.cons (Prod.ext hlog.1 rfl) rfl)))

end TwinLedger
