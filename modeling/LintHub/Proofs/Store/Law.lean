import LintHub.Gate.Verdict
import LintHub.Proofs.Http.Answers
import LintHub.Proofs.Run.Frame

/-! # What the store tells

Every fault of the store is a store fault, with the exceptions that are listed here. The gate and the
service tell a store fault; the others leave them.
-/

namespace LintHub

open Fault

/-! ## The gate -/

namespace Gate

/-- The outcome of a report that cannot be read. -/
def unread : Fault → Except Fault Outcome
  | .store text => .ok ⟨2, "[gate] cannot read report: " ++ text ++ "\n", ""⟩
  | f => .error f

theorem run_unread {stamp : Stamp} {disk : Disk} {arguments : List String} {o : Options} {f : Fault}
    (given : Options.ofArguments arguments = .ok o)
    (fails : Store.analysesOf stamp.time o.report (disk.readBytes (.ofText o.report)) = .error f) :
    run stamp disk arguments = unread f := by
  unfold run judge
  rw [given]
  dsimp only
  rw [fails]
  cases f with
  | store text =>
    show Except.ok _ = Except.ok _
    simp [linesText, String.join]
  | _ => rfl

end Gate

/-! ## The law -/

namespace Store

/-- Which faults of the operations on one path are no store faults, what a save leaves, and what the
gate makes of a fault. -/
structure FileLaw (w : World) (path : String) : Prop where
  readAll : ∀ f, (((loadAll path).outcome w).1 = .error f ∧ ¬ f.IsStore) ↔
    Unreadable w.disk (.ofText path) f ∨
      ∃ doc, documentOf path (w.disk.readBytes (.ofText path)) = .ok doc ∧
        Overflows w.stamp.time (entries doc) f
  readOne : ∀ f, (((load path).outcome w).1 = .error f ∧ ¬ f.IsStore) ↔
    Unreadable w.disk (.ofText path) f ∨
      ∃ doc fs, documentOf path (w.disk.readBytes (.ofText path)) = .ok doc ∧
        entries doc = [.obj fs] ∧ Analysis.Overflows w.stamp.time fs f
  writeOne : ∀ a f, (((saveOne a path).outcome w).1 = .error f ∧ ¬ f.IsStore) ↔
    (∃ e, a.timestamp.toUtc = .error e ∧ f = .moment e) ∨
      ∃ doc, a.toJson = .ok doc ∧ Unwritten w.disk (.ofText path) doc f
  writeAll : ∀ as f, (((saveAll as path).outcome w).1 = .error f ∧ ¬ f.IsStore) ↔
    (∃ before a after e, as = before ++ a :: after ∧
      (∀ b ∈ before, ∃ u, b.timestamp.toUtc = .ok u) ∧
      a.timestamp.toUtc = .error e ∧ f = .moment e) ∨
    ∃ docs, as.mapM Analysis.toJson = .ok docs ∧ Unwritten w.disk (.ofText path) (.arr docs) f
  savedOne : ∀ a p w', (saveOne a path).outcome w = (.ok p, w') →
    ∃ doc text, a.toJson = .ok doc ∧ fileText doc = .ok text ∧
      w'.disk.readBytes p = .ok (Text.encodeUtf8 text)
  savedAll : ∀ as p w', (saveAll as path).outcome w = (.ok p, w') →
    ∃ docs text, as.mapM Analysis.toJson = .ok docs ∧ fileText (.arr docs) = .ok text ∧
      w'.disk.readBytes p = .ok (Text.encodeUtf8 text)
  gate : ∀ arguments o f, Gate.Options.ofArguments arguments = .ok o → o.report = path →
    ((loadAll path).outcome w).1 = .error f → Gate.run w.stamp w.disk arguments = Gate.unread f

/-- Which faults of documents that come with a request are no store faults, and what the service
answers to a fault. -/
structure RequestLaw (s : Http.Service) : Prop where
  documents : ∀ source docs f,
    (ofDocuments s.hub.world.stamp.time source docs = .error f ∧ ¬ f.IsStore) ↔
      Overflows s.hub.world.stamp.time docs f
  aggregate : ∀ docs f, ofDocuments s.hub.world.stamp.time requestSource docs = .error f →
    (Http.Service.aggregate docs).outcome s = (Http.Service.refused f, s)
  statistics : ∀ docs limit f, ofDocuments s.hub.world.stamp.time requestSource docs = .error f →
    (Http.Service.statistics docs limit).outcome s = (Http.Service.refused f, s)
  baseline : ∀ baseline current f,
    ofDocuments s.hub.world.stamp.time requestSource baseline = .error f →
    (Http.Service.compare baseline current).outcome s = (Http.Service.refused f, s)
  current : ∀ baseline current as f,
    ofDocuments s.hub.world.stamp.time requestSource baseline = .ok as →
    ofDocuments s.hub.world.stamp.time requestSource current = .error f →
    (Http.Service.compare baseline current).outcome s = (Http.Service.refused f, s)

theorem saveOne_leaks_iff {a : Analysis} {path : String} {w : World} {f : Fault} :
    (((saveOne a path).outcome w).1 = .error f ∧ ¬ f.IsStore) ↔
      (∃ e, a.timestamp.toUtc = .error e ∧ f = .moment e) ∨
        ∃ doc, a.toJson = .ok doc ∧ Unwritten w.disk (.ofText path) doc f := by
  rw [outcome_saveOne, ← toJson_error_iff]
  cases made : a.toJson with
  | ok doc => simp [save_leaks_iff]
  | error g =>
    constructor
    · rintro ⟨h, -⟩
      cases h
      exact .inl rfl
    · rintro (h | ⟨doc, h, -⟩)
      · cases h
        obtain ⟨e, -, rfl⟩ := toJson_error_iff.mp made
        exact ⟨rfl, fun ⟨text, h⟩ => (nomatch h)⟩
      · cases h

theorem saveAll_leaks_iff {as : List Analysis} {path : String} {w : World} {f : Fault} :
    (((saveAll as path).outcome w).1 = .error f ∧ ¬ f.IsStore) ↔
      (∃ before a after e, as = before ++ a :: after ∧
        (∀ b ∈ before, ∃ u, b.timestamp.toUtc = .ok u) ∧
        a.timestamp.toUtc = .error e ∧ f = .moment e) ∨
      ∃ docs, as.mapM Analysis.toJson = .ok docs ∧
        Unwritten w.disk (.ofText path) (.arr docs) f := by
  have timeless : as.mapM Analysis.toJson = .error f ↔
      ∃ before a after e, as = before ++ a :: after ∧
        (∀ b ∈ before, ∃ u, b.timestamp.toUtc = .ok u) ∧
        a.timestamp.toUtc = .error e ∧ f = .moment e := by
    simp only [mapM_error_iff, toJson_error_iff, toJson_ok_iff]
    constructor
    · rintro ⟨before, a, after, split, fine, e, utc, rfl⟩
      exact ⟨before, a, after, e, split, fine, utc, rfl⟩
    · rintro ⟨before, a, after, e, split, fine, utc, rfl⟩
      exact ⟨before, a, after, split, fine, e, utc, rfl⟩
  rw [outcome_saveAll, ← timeless]
  cases made : as.mapM Analysis.toJson with
  | ok docs => simp [save_leaks_iff]
  | error g =>
    constructor
    · rintro ⟨h, -⟩
      cases h
      exact .inl rfl
    · rintro (h | ⟨doc, h, -⟩)
      · cases h
        obtain ⟨before, a, after, e, -, -, -, rfl⟩ := timeless.mp made
        refine ⟨rfl, ?_⟩
        rintro ⟨text, h⟩
        cases h
      · cases h

theorem fileLaw (w : World) (path : String) : FileLaw w path where
  readAll f := by
    rw [outcome_loadAll]
    exact analysesOf_leaks_iff
  readOne f := by
    rw [outcome_load]
    exact analysisOf_leaks_iff
  writeOne _ _ := saveOne_leaks_iff
  writeAll _ _ := saveAll_leaks_iff
  savedOne a p w' h := by
    rw [outcome_saveOne] at h
    cases made : a.toJson with
    | error f =>
      rw [made] at h
      cases h
    | ok doc =>
      rw [made] at h
      obtain ⟨-, text, fit, kept⟩ := save_ok h
      exact ⟨doc, text, rfl, fit, kept⟩
  savedAll as p w' h := by
    rw [outcome_saveAll] at h
    cases made : as.mapM Analysis.toJson with
    | error f =>
      rw [made] at h
      cases h
    | ok docs =>
      rw [made] at h
      obtain ⟨-, text, fit, kept⟩ := save_ok h
      exact ⟨docs, text, rfl, fit, kept⟩
  gate arguments o f given same fails := by
    subst same
    exact Gate.run_unread given fails

theorem requestLaw (s : Http.Service) : RequestLaw s where
  documents source _ _ := ofDocumentsFrom_leaks_iff source 0
  aggregate docs f fails := by
    rw [Http.Service.aggregate, Http.Service.outcome_withAnalyses, fails]
  statistics docs limit f fails := by
    rw [Http.Service.statistics, Http.Service.outcome_withAnalyses, fails]
  baseline baseline current f fails := by
    rw [Http.Service.compare, Http.Service.outcome_withAnalyses, fails]
  current baseline current as f read fails := by
    rw [Http.Service.compare, Http.Service.outcome_withAnalyses, read]
    dsimp only
    rw [Http.Service.outcome_withAnalyses, fails]

/-- On every path of every world, and for whatever documents a service is sent. -/
theorem store_tells (w : World) (path : String) (s : Http.Service) :
    FileLaw w path ∧ RequestLaw s :=
  ⟨fileLaw w path, requestLaw s⟩

/-- Bytes that are no text are not told of. -/
theorem not_every_fault_is_told :
    ¬ ∀ (w : World) (path : String) (f : Fault), ((loadAll path).outcome w).1 = .error f → f.IsStore := by
  intro claim
  let w : World := { World.bare .default with disk := ⟨[(["f.json"], .file [0xff] false)], []⟩ }
  have bytes : w.disk.readBytes (Path.ofText "f.json") = .ok [0xff] :=
    Disk.readBytes_name (by decide) rfl
  have text : Text.decodeUtf8 [0xff] = .error ⟨0, [0xff], .invalidStart⟩ := by
    rw [Text.decodeUtf8, Text.decodeFrom]
    rfl
  have read : ((loadAll "f.json").outcome w).1 = .error _ ∧ ¬ Fault.IsStore _ :=
    (fileLaw w "f.json").readAll _ |>.mpr (.inl (Unreadable.bytes bytes text))
  exact read.2 (claim w "f.json" _ read.1)

end Store

end LintHub
