import EmulationBindings.Proofs.Generation.Modes

/-!
# One run after another

Many crates can share a project, and a crate is generated again and again: each run finds the disk
as the run before it has left it, however that one ended.  A run writes its documents one by one,
and ends with the one that it cannot write.  So whatever happens a file is what it was at first, or
the whole document that was last written to it, or the beginning of that document where the system
has stopped the write.  No directory is ever made or removed.
-/

namespace EmulationBindings

open EmulationBindings.Action

/-! ## Documents written in turn -/

namespace Artifact

/-- The documents are written in this order, and nothing else is. -/
inductive WroteAll (cwd : Location) : Disk → List Artifact → Disk → Prop where
  | nil (d : Disk) : WroteAll cwd d [] d
  | cons {d d₁ d₂ : Disk} {a : Artifact} {rest : List Artifact}
      (head : d.Wrote cwd a.path (Utf8.encode a.content) d₁)
      (tail : WroteAll cwd d₁ rest d₂) : WroteAll cwd d (a :: rest) d₂

variable {cwd : Location} {d d' : Disk} {done : List Artifact}

theorem WroteAll.get?_eq_directory_iff (hwrote : WroteAll cwd d done d') (l : Location) :
    d'.get? l = some .directory ↔ d.get? l = some .directory := by
  induction hwrote with
  | nil d => rfl
  | cons head tail ih => rw [ih, head.get?_eq_directory_iff]

theorem WroteAll.get?_of_not_mem (hwrote : WroteAll cwd d done d') {l : Location}
    (hl : l ∉ done.map fun a => a.path.target cwd) :
    d'.get? l = d.get? l := by
  induction hwrote with
  | nil d => rfl
  | cons head tail ih =>
      rw [List.map_cons, List.mem_cons, not_or] at hl
      rw [ih hl.2, head.get?_of_ne hl.1]

theorem WroteAll.get?_of_mem (hwrote : WroteAll cwd d done d')
    (hdistinct : (done.map fun a => a.path.target cwd).Nodup) {a : Artifact} (ha : a ∈ done) :
    d'.get? (a.path.target cwd) = some (.file (Utf8.encode a.content)) := by
  induction hwrote with
  | nil d => simp at ha
  | cons head tail ih =>
      rw [List.map_cons, List.nodup_cons] at hdistinct
      rcases List.mem_cons.mp ha with rfl | ha
      · rw [tail.get?_of_not_mem hdistinct.1, head.get?_target]
      · exact ih hdistinct.2 ha

theorem documentsWritten_of_write_eq_ok {site : Site} {a : Artifact} {w w' : World}
    {record : Report.ArtifactRecord} (hwrite : (a.write site).result w = (.ok record, w')) :
    w'.documentsWritten = w.documentsWritten ++ [a.path] := by
  rw [result_write] at hwrite
  split at hwrite
  · simp at hwrite
  · split at hwrite
    · simp at hwrite
    · obtain ⟨-, rfl⟩ := Prod.mk.inj hwrite
      simp [World.documentsWritten, Event.documentWritten?]

theorem journal_of_write_eq_error {site : Site} {a : Artifact} {w w' : World} {e : Stop}
    (hwrite : (a.write site).result w = (.error e, w')) :
    w'.journal = w.journal := by
  rw [result_write] at hwrite
  split at hwrite
  · obtain ⟨-, rfl⟩ := Prod.mk.inj hwrite
    rfl
  · split at hwrite
    · obtain ⟨-, rfl⟩ := Prod.mk.inj hwrite
      rfl
    · simp at hwrite

/-- However the writing ends, some of the documents are in place from the first one on, and the
journal names just these.  The one after them can be spoilt, which ends the writing. -/
theorem exists_wroteAll_of_mapM_write (site : Site) (as : List Artifact) (w : World) :
    ∃ done d, done <+: as ∧ WroteAll site.cwd w.disk done d ∧
      ((as.mapM (write site)).result w).2.documentsWritten =
        w.documentsWritten ++ done.map (·.path) ∧
      (((as.mapM (write site)).result w).2.disk = d ∨
        (∃ e, ((as.mapM (write site)).result w).1 = .error e) ∧
          ∃ a, done ++ [a] <+: as ∧
            d.Spoilt site.trouble site.cwd a.path (Utf8.encode a.content)
              ((as.mapM (write site)).result w).2.disk) := by
  induction as generalizing w with
  | nil => exact ⟨[], w.disk, List.prefix_rfl, .nil w.disk, by simp, .inl rfl⟩
  | cons a rest ih =>
      rw [result_mapM_cons]
      cases hfirst : (write site a).result w with
      | mk first w₁ =>
          cases first with
          | error e =>
              refine ⟨[], w.disk, List.nil_prefix, .nil w.disk, ?_,
                .inr ⟨⟨e, rfl⟩, a, ⟨rest, rfl⟩, (write_eq_error hfirst).1⟩⟩
              simp [World.documentsWritten, journal_of_write_eq_error hfirst]
          | ok record =>
              obtain ⟨-, -, -, hwrote⟩ := write_eq_ok hfirst
              obtain ⟨done, d, hdone, hall, hnames, hend⟩ := ih w₁
              refine ⟨a :: done, d, List.cons_prefix_cons.mpr ⟨rfl, hdone⟩, .cons hwrote hall,
                ?_, hend.imp_right ?_⟩
              · simp [hnames, documentsWritten_of_write_eq_ok hfirst]
              · rintro ⟨⟨e, he⟩, b, hb, hspoilt⟩
                exact ⟨⟨e, congrArg (Except.map (record :: ·)) he⟩, b,
                  List.cons_prefix_cons.mpr ⟨rfl, hb⟩, hspoilt⟩

end Artifact

namespace Generation

theorem nodup_targets_artifacts (cwd : Location) {q : Request} (hrecipe : q.recipe = .standard)
    (typeScript rust : Text) :
    ((artifacts q typeScript rust).map fun a => a.path.target cwd).Nodup := by
  have hdistinct := distinctOutputs_standard cwd hrecipe
  refine List.nodup_cons.mpr ⟨fun hmem => ?_, by simp⟩
  exact hdistinct (List.mem_singleton.mp hmem)

/-! ## One run -/

/-- A run of the standard recipe without a report: where it takes place and what it is asked. -/
structure Invocation where
  site : Site
  request : Request
  standard : request.recipe = .standard
  unreported : request.report = none

namespace Invocation

def result (i : Invocation) (d : Disk) : Except Stop Report × World :=
  (run i.site i.request).result { disk := d }

/-- The disk that the run leaves, however it ends. -/
def after (i : Invocation) (d : Disk) : Disk := (i.result d).2.disk

/-- The files that the run has written, by its journal. -/
def written (i : Invocation) (d : Disk) : List Location :=
  (i.result d).2.documentsWritten.map (Path.target i.site.cwd)

def typeScriptTarget (i : Invocation) : Location :=
  (typeScriptDestination i.request).target i.site.cwd

def rustTarget (i : Invocation) : Location :=
  (rustDestination i.request).target i.site.cwd

/-- At this location is one of the two documents of the run, whole. -/
def Leaves (i : Invocation) (d : Disk) (l : Location) (node : Option Node) : Prop :=
  ∃ text typeScript rust, Renders i.site i.request d text typeScript rust ∧
    (l = i.typeScriptTarget ∧ node = some (.file (Utf8.encode typeScript)) ∨
      l = i.rustTarget ∧ node = some (.file (Utf8.encode rust)))

/-- The run has failed, and at this location is the beginning of one of its two documents, as far as
the system has let the write through. -/
def LeavesPart (i : Invocation) (d : Disk) (l : Location) (node : Option Node) : Prop :=
  (∃ e, (i.result d).1 = .error e) ∧
    ∃ text typeScript rust document kept error,
      Renders i.site i.request d text typeScript rust ∧
      (l = i.typeScriptTarget ∧ document = typeScript ∨ l = i.rustTarget ∧ document = rust) ∧
      i.site.trouble l (Utf8.encode document) = some (.stopped kept error) ∧
      node = some (.file ((Utf8.encode document).take kept))

/-- The run has written the file at this location, or has changed it without writing it to its
end. -/
def Touches (i : Invocation) (d : Disk) (l : Location) : Prop :=
  l ∈ i.written d ∨ (i.after d).get? l ≠ d.get? l

/-- A run writes from the first of its documents on, as far as it gets, and only when it is
not asked to check.  The document after those it has written can be spoilt. -/
theorem exists_wroteAll (i : Invocation) (d : Disk) :
    ∃ (done : List Artifact) (d₁ : Disk),
      Artifact.WroteAll i.site.cwd d done d₁ ∧
        i.written d = done.map (fun a => a.path.target i.site.cwd) ∧
        (done = [] ∧ i.after d = d₁ ∨ i.request.check = false ∧
          ∃ text typeScript rust, Renders i.site i.request d text typeScript rust ∧
            done <+: artifacts i.request typeScript rust ∧
            (i.after d = d₁ ∨ (∃ e, (i.result d).1 = .error e) ∧
              ∃ a, done ++ [a] <+: artifacts i.request typeScript rust ∧
                d₁.Spoilt i.site.trouble i.site.cwd a.path (Utf8.encode a.content)
                  (i.after d))) := by
  have hsilence : World.documentsWritten { disk := d } = [] := rfl
  rcases stopped_or_prepared i.site i.request { disk := d } with
    ⟨e, w', hrun, hdisk, hnames⟩ | ⟨s, typeScript, rust, hprepared⟩
  · refine ⟨[], d, .nil d, ?_, .inl ⟨rfl, ?_⟩⟩
    · rw [written, result, hrun, hnames, hsilence]
      rfl
    · rw [after, result, hrun, hdisk]
  obtain ⟨text, hrenders, -⟩ := hprepared.renders
  obtain ⟨w₁, hdisk, hnames, hrun⟩ := exists_result_run_of_prepared i.unreported hprepared
  cases hsettle : (settle i.site i.request (artifacts i.request typeScript rust)).result w₁ with
  | mk r w₂ =>
      have hafter : i.after d = w₂.disk := by rw [after, result, hrun hsettle]
      have hwritten : i.written d = w₂.documentsWritten.map (Path.target i.site.cwd) := by
        rw [written, result, hrun hsettle]
      have hresult : (i.result d).1 = r.map (reportOf i.request s) := by
        rw [result, hrun hsettle]
      unfold settle at hsettle
      cases hcheck : i.request.check with
      | true =>
          rw [if_pos hcheck] at hsettle
          have hkept := ((reads_compare i.site _).of_result hsettle).2
          have hsilent := (namesNone_compare i.site _).of_result hsettle
          refine ⟨[], d, .nil d, ?_, .inl ⟨rfl, ?_⟩⟩
          · rw [hwritten, hsilent, hnames, hsilence]
            rfl
          · rw [hafter, hkept, hdisk]
      | false =>
          rw [if_neg (by simp [hcheck])] at hsettle
          obtain ⟨done, d₁, hdone, hall, hdocuments, hend⟩ :=
            Artifact.exists_wroteAll_of_mapM_write i.site (artifacts i.request typeScript rust) w₁
          rw [hdisk] at hall
          rw [hsettle] at hdocuments hend
          refine ⟨done, d₁, hall, ?_, .inr ⟨rfl, text, typeScript, rust, hrenders, hdone, ?_⟩⟩
          · rw [hwritten, hdocuments, hnames, hsilence, List.nil_append, List.map_map]
            rfl
          · rw [hafter]
            refine hend.imp_right ?_
            rintro ⟨⟨e, he⟩, hspoilt⟩
            obtain rfl : r = .error e := he
            exact ⟨⟨e, hresult⟩, hspoilt⟩

theorem get?_after_eq_directory_iff (i : Invocation) (d : Disk) (l : Location) :
    (i.after d).get? l = some .directory ↔ d.get? l = some .directory := by
  obtain ⟨done, d₁, hwrote, -, ⟨-, hend⟩ | ⟨-, text, typeScript, rust, -, -, hend⟩⟩ :=
    i.exists_wroteAll d
  · rw [hend]
    exact hwrote.get?_eq_directory_iff l
  · rcases hend with hend | ⟨-, a, -, hspoilt⟩
    · rw [hend]
      exact hwrote.get?_eq_directory_iff l
    · exact (hspoilt.get?_eq_directory_iff l).trans (hwrote.get?_eq_directory_iff l)

theorem eq_or_eq_of_mem_artifacts {i : Invocation} {typeScript rust : Text} {a : Artifact}
    (ha : a ∈ artifacts i.request typeScript rust) :
    a.path.target i.site.cwd = i.typeScriptTarget ∧ a.content = typeScript ∨
      a.path.target i.site.cwd = i.rustTarget ∧ a.content = rust := by
  have hone : a = typeScriptArtifact i.request typeScript ∨ a = rustArtifact i.request rust := by
    simpa [artifacts_eq] using ha
  rcases hone with rfl | rfl
  · exact .inl ⟨rfl, rfl⟩
  · exact .inr ⟨rfl, rfl⟩

/-- A document that comes after others goes to another file than they do. -/
theorem target_not_mem_of_append_prefix {i : Invocation} {typeScript rust : Text}
    {done : List Artifact} {a : Artifact}
    (hnext : done ++ [a] <+: artifacts i.request typeScript rust) :
    a.path.target i.site.cwd ∉ done.map fun b => b.path.target i.site.cwd := by
  have hnodup : ((done ++ [a]).map fun b => b.path.target i.site.cwd).Nodup :=
    (hnext.map _).sublist.nodup
      (nodup_targets_artifacts i.site.cwd i.standard typeScript rust)
  rw [List.map_append, List.map_singleton, List.nodup_append] at hnodup
  intro hmem
  exact hnodup.2.2 _ hmem _ (List.mem_singleton_self _) rfl

theorem leaves_of_mem_written (i : Invocation) (d : Disk) {l : Location}
    (hl : l ∈ i.written d) :
    i.request.check = false ∧ i.Leaves d l ((i.after d).get? l) := by
  obtain ⟨done, d₁, hwrote, hwritten, hdone⟩ := i.exists_wroteAll d
  rw [hwritten] at hl
  obtain ⟨a, ha, rfl⟩ := List.mem_map.mp hl
  rcases hdone with ⟨rfl, -⟩ | ⟨hcheck, text, typeScript, rust, hrenders, hfirst, hend⟩
  · simp at ha
  refine ⟨hcheck, text, typeScript, rust, hrenders, ?_⟩
  have hdistinct : (done.map fun a => a.path.target i.site.cwd).Nodup :=
    (hfirst.map _).sublist.nodup
      (nodup_targets_artifacts i.site.cwd i.standard typeScript rust)
  have hnode : (i.after d).get? (a.path.target i.site.cwd) =
      some (.file (Utf8.encode a.content)) := by
    rcases hend with hend | ⟨-, b, hb, hspoilt⟩
    · rw [hend]
      exact hwrote.get?_of_mem hdistinct ha
    · have hne : a.path.target i.site.cwd ≠ b.path.target i.site.cwd := by
        intro hsame
        exact target_not_mem_of_append_prefix hb (hsame ▸ hl)
      rw [hspoilt.get?_of_ne hne]
      exact hwrote.get?_of_mem hdistinct ha
  rw [hnode]
  rcases eq_or_eq_of_mem_artifacts (hfirst.subset ha) with ⟨hplace, hcontent⟩ | ⟨hplace, hcontent⟩
  · exact .inl ⟨hplace, by rw [hcontent]⟩
  · exact .inr ⟨hplace, by rw [hcontent]⟩

theorem leavesPart_of_get?_after_ne (i : Invocation) (d : Disk) {l : Location}
    (hl : l ∉ i.written d) (hne : (i.after d).get? l ≠ d.get? l) :
    i.request.check = false ∧ i.LeavesPart d l ((i.after d).get? l) := by
  obtain ⟨done, d₁, hwrote, hwritten, hdone⟩ := i.exists_wroteAll d
  rw [hwritten] at hl
  have hkept := hwrote.get?_of_not_mem hl
  rcases hdone with ⟨-, hend⟩ | ⟨hcheck, text, typeScript, rust, hrenders, -, hend⟩
  · rw [hend] at hne
    exact absurd hkept hne
  rcases hend with hend | ⟨herror, a, ha, hspoilt⟩
  · rw [hend] at hne
    exact absurd hkept hne
  -- Only the file of the document that was spoilt can have changed.
  obtain rfl : l = a.path.target i.site.cwd := by
    by_contra hother
    exact hne ((hspoilt.get?_of_ne hother).trans hkept)
  refine ⟨hcheck, herror, text, typeScript, rust, a.content, ?_⟩
  generalize i.after d = d' at hspoilt hne ⊢
  cases hspoilt with
  | untouched => exact absurd hkept hne
  | begun hstopped hwrote' =>
      refine ⟨_, _, hrenders, ?_, hstopped, hwrote'.get?_target⟩
      exact eq_or_eq_of_mem_artifacts (ha.subset (List.mem_append_right done
        (List.mem_singleton_self a)))

end Invocation

/-! ## Many runs -/

/-- The disk that runs leave one after another, each on the disk that the one before it left. -/
def afterAll (is : List Invocation) (d : Disk) : Disk := is.foldl (fun d i => i.after d) d

/-- None of these runs, one after another, touches the file at this location. -/
def Untouched : List Invocation → Disk → Location → Prop
  | [], _, _ => True
  | i :: later, d, l => ¬ i.Touches d l ∧ Untouched later (i.after d) l

theorem get?_afterAll_eq_directory_iff (is : List Invocation) (d : Disk) (l : Location) :
    (afterAll is d).get? l = some .directory ↔ d.get? l = some .directory := by
  induction is generalizing d with
  | nil => rfl
  | cons i later ih => exact (ih (i.after d)).trans (i.get?_after_eq_directory_iff d l)

/-- The location is as it was, or as the last of the runs to touch it has left it: with the whole of
a document that the run has written there, or with a part of one that it has not. -/
def HoldsLast (is : List Invocation) (d : Disk) (l : Location) : Prop :=
  Untouched is d l ∧ (afterAll is d).get? l = d.get? l ∨
    ∃ before i later, is = before ++ i :: later ∧
      i.request.check = false ∧ Untouched later (i.after (afterAll before d)) l ∧
      (l ∈ i.written (afterAll before d) ∧
          i.Leaves (afterAll before d) l ((afterAll is d).get? l) ∨
        l ∉ i.written (afterAll before d) ∧
          i.LeavesPart (afterAll before d) l ((afterAll is d).get? l))

theorem holdsLast (is : List Invocation) (d : Disk) (l : Location) : HoldsLast is d l := by
  induction is generalizing d with
  | nil => exact .inl ⟨trivial, rfl⟩
  | cons i rest ih =>
      rcases ih (i.after d) with ⟨huntouched, hsame⟩ | ⟨before, j, later, rfl, hlast⟩
      · by_cases hl : l ∈ i.written d
        · obtain ⟨hcheck, hleaves⟩ := i.leaves_of_mem_written d hl
          rw [← hsame] at hleaves
          exact .inr ⟨[], i, rest, rfl, hcheck, huntouched, .inl ⟨hl, hleaves⟩⟩
        · by_cases hne : (i.after d).get? l = d.get? l
          · have huntouched' : ¬ i.Touches d l := not_or.mpr ⟨hl, not_not.mpr hne⟩
            exact .inl ⟨⟨huntouched', huntouched⟩, hsame.trans hne⟩
          · obtain ⟨hcheck, hpart⟩ := i.leavesPart_of_get?_after_ne d hl hne
            rw [← hsame] at hpart
            exact .inr ⟨[], i, rest, rfl, hcheck, huntouched, .inr ⟨hl, hpart⟩⟩
      · exact .inr ⟨i :: before, j, later, rfl, hlast⟩

/-- Where a run has left a whole document or a part of one there is a file, at one of the two places
that the run has for its documents. -/
theorem file_of_leaves {i : Invocation} {d : Disk} {l : Location} {node : Option Node}
    (hleaves : i.Leaves d l node ∨ i.LeavesPart d l node) :
    (l = i.typeScriptTarget ∨ l = i.rustTarget) ∧ ∃ content, node = some (.file content) := by
  rcases hleaves with ⟨text, typeScript, rust, -, hwhole⟩ |
    ⟨-, text, typeScript, rust, document, kept, error, -, hplace, -, hnode⟩
  · rcases hwhole with ⟨hplace, hnode⟩ | ⟨hplace, hnode⟩
    · exact ⟨.inl hplace, _, hnode⟩
    · exact ⟨.inr hplace, _, hnode⟩
  · exact ⟨hplace.imp And.left And.left, _, hnode⟩

theorem files_of_session (is : List Invocation) (d : Disk) (l : Location) :
    ((afterAll is d).get? l = some .directory ↔ d.get? l = some .directory) ∧
      (∀ content, d.get? l = some (.file content) →
        ∃ content', (afterAll is d).get? l = some (.file content')) ∧
      HoldsLast is d l ∧
      ((∀ i ∈ is, i.request.check = false → l ≠ i.typeScriptTarget ∧ l ≠ i.rustTarget) →
        (afterAll is d).get? l = d.get? l) := by
  have hlast := holdsLast is d l
  refine ⟨get?_afterAll_eq_directory_iff is d l, fun content hfile => ?_, hlast,
    fun hnowhere => ?_⟩
  · rcases hlast with ⟨-, hsame⟩ | ⟨before, i, later, -, -, -, hleft⟩
    · exact ⟨content, hsame.trans hfile⟩
    · exact (file_of_leaves (hleft.imp And.right And.right)).2
  · rcases hlast with ⟨-, hsame⟩ | ⟨before, i, later, rfl, hcheck, -, hleft⟩
    · exact hsame
    · obtain ⟨htypeScript, hrust⟩ := hnowhere i (by simp) hcheck
      rcases (file_of_leaves (hleft.imp And.right And.right)).1 with hl | hl
      · exact absurd hl htypeScript
      · exact absurd hl hrust

def smallWriting : Invocation := ⟨smallSite, quietRequest, rfl, rfl⟩

def smallChecking : Invocation := ⟨smallSite, { quietRequest with check := true }, rfl, rfl⟩

theorem files_of_session_of_old_document :
    smallWriting.Leaves smallDisk smallWriting.typeScriptTarget
      ((afterAll [smallWriting, smallChecking] smallDisk).get? smallWriting.typeScriptTarget) := by
  have hwritten : smallWriting.typeScriptTarget ∈ smallWriting.written smallDisk := by
    decide +kernel
  obtain ⟨-, -, hlast, -⟩ := files_of_session [smallWriting, smallChecking] smallDisk
    smallWriting.typeScriptTarget
  rcases hlast with ⟨huntouched, -⟩ | ⟨before, i, later, hsession, hcheck, -, hleaves⟩
  · exact absurd (.inl hwritten) huntouched.1
  · -- The second run only checks, so the last to write is the first.
    rcases before with _ | ⟨first, _ | ⟨second, rest⟩⟩
    · obtain ⟨rfl, -⟩ := List.cons.inj hsession
      rcases hleaves with ⟨-, hwhole⟩ | ⟨hunwritten, -⟩
      · exact hwhole
      · exact absurd hwritten hunwritten
    · obtain ⟨-, hsession⟩ := List.cons.inj hsession
      obtain ⟨rfl, -⟩ := List.cons.inj hsession
      simp [smallChecking] at hcheck
    · simp at hsession

/-- The same run, where files have room for three bytes. -/
def smallStopped : Invocation := ⟨narrowSite 3, quietRequest, rfl, rfl⟩

/-- Neither the old file is there after it, nor a whole document. -/
theorem part_of_document_left_by_session :
    smallDisk.get? smallStopped.typeScriptTarget = some (.file (Utf8.encode "old")) ∧
      (afterAll [smallStopped] smallDisk).get? smallStopped.typeScriptTarget =
        some (.file (Utf8.encode "/**")) ∧
      ∀ profiles systems,
        Document.typeScript .standard profiles systems ≠ .ok "/**" ∧
          Document.rust .standard profiles systems ≠ .ok "/**" := by
  have hshort : ("/**" : Text).length = 3 := rfl
  have htypeScript : 3 < Document.typeScriptHead.length := by decide +kernel
  have hrust : 3 < Document.rustHead.length := by decide +kernel
  refine ⟨by decide +kernel, by decide +kernel, fun profiles systems => ⟨fun hwhole => ?_,
    fun hwhole => ?_⟩⟩
  · obtain ⟨-, -, htext⟩ := Document.typeScript_eq_ok_iff.mp hwhole
    have hlength := congrArg List.length htext
    simp only [List.length_append] at hlength
    omega
  · obtain ⟨-, -, htext⟩ := Document.rust_eq_ok_iff.mp hwhole
    have hlength := congrArg List.length htext
    simp only [List.length_append] at hlength
    omega

end Generation

end EmulationBindings
