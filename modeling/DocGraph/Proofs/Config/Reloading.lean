import DocGraph.Proofs.Config.InPlace
import DocGraph.Proofs.Yaml.Unreadable

/-!
# Loading again

A load that fails leaves the defaults behind, and nothing of the file or the environment: whatever
can fail comes before the first change. So a loader that is asked again starts from the defaults
like a new one, and once the file can be loaded both have the same settings.
-/

namespace DocGraph

open Yaml (Format Value)

variable {disk : Disk} {environment : Environment} {path other : Path} {layer : Settings}

/-! ## One file under two paths -/

theorem Disk.read_of_spot {bytes : Bytes} (h : disk.spot other = disk.spot path)
    (hread : disk.read path = .ok bytes) : disk.read other = .ok bytes := by
  rw [Disk.read_eq_ok_iff] at hread ⊢
  rwa [h]

theorem Disk.holds_of_spot {found : Bool} (h : disk.spot other = disk.spot path)
    (hholds : disk.holds path = .ok found) : disk.holds other = .ok found := by
  rw [Disk.holds, Disk.find?, Disk.refusal?] at hholds ⊢
  rw [h]
  cases hspot : disk.spot path with
  | object route object => simpa [hspot] using hholds
  | vacant folder name => simpa [hspot] using hholds
  | blocked fault =>
    cases habsence : fault.isAbsence with
    | true => simpa [hspot, habsence] using hholds
    | false => simp [hspot, habsence, Except.map] at hholds

section

variable [Format]

theorem readValue_of_spot {value : Value} (h : disk.spot other = disk.spot path)
    (hvalue : (readValue disk path).outcome = .ok value) :
    (readValue disk other).outcome = .ok value := by
  obtain ⟨t, ⟨bytes, written, hread, hwritten, rfl⟩, hload⟩ := exists_text_of_readValue hvalue
  simp [readValue, Disk.read_of_spot h hread, hwritten, hload]

theorem readLayer_of_spot (h : disk.spot other = disk.spot path)
    (hlayer : (readLayer disk path).outcome = .ok layer) :
    (readLayer disk other).outcome = .ok layer := by
  obtain ⟨value, hvalue, hentries⟩ := Run.outcome_andThen_eq_ok_iff.1 hlayer
  refine Run.outcome_andThen_eq_ok_iff.2 ⟨value, readValue_of_spot h hvalue, ?_⟩
  split at hentries
  · exact hentries
  · split at hentries
    · cases hentries
    · next hfalse =>
      rw [if_neg hfalse]
      exact hentries

/-- A file adds the same layer under each of its paths. -/
theorem AddsLayer.of_spot {file chosen : Option Path} (h : AddsLayer disk file layer)
    (hspot : chosen.map disk.spot = file.map disk.spot) : AddsLayer disk chosen layer := by
  cases h with
  | unchosen =>
    rw [Option.map_none, Option.map_eq_none_iff] at hspot
    exact hspot ▸ .unchosen
  | missing hmissing =>
    obtain ⟨path, rfl, hpath⟩ := Option.map_eq_some_iff.1 hspot
    exact .missing (Disk.holds_of_spot hpath hmissing)
  | read hholds hlayer =>
    obtain ⟨path, rfl, hpath⟩ := Option.map_eq_some_iff.1 hspot
    exact .read (Disk.holds_of_spot hpath hholds) (readLayer_of_spot hpath hlayer)

end

/-! ## Loading again -/

namespace Loader

section

variable [Format] {loader : Loader} {fault : Fault}

theorem reload_of_fault (h : (loader.reload disk environment).2.outcome = .error fault) :
    (loader.reload disk environment).1 = ⟨loader.file, .default⟩ := by
  rw [reload_eq, reload_fault h]
  rfl

theorem reload_of_addsLayer (loader : Loader) (h : AddsLayer disk loader.file layer)
    (environment : Environment) :
    (loader.reload disk environment).1 = ⟨loader.file,
        (Settings.merge .default layer).overrideAll (Override.all environment.bindings)⟩ ∧
      (loader.reload disk environment).2.outcome = .ok () := by
  rw [reload_eq]
  simp [Run.outcome_andThen, outcome_loadSettings h, Except.toOption, Except.bind]

theorem start_of_addsLayer {asked : Option Text} {root file : Option Path}
    (hchosen : (chooseFile disk environment asked root).outcome = .ok file)
    (h : AddsLayer disk file layer) :
    (start disk environment asked root).outcome = .ok ⟨file,
      (Settings.merge .default layer).overrideAll (Override.all environment.bindings)⟩ := by
  simp [start, Run.outcome_andThen, hchosen, outcome_loadSettings h, Except.bind]

/-- A load that fails, in whatever way, leaves the defaults and the chosen file. When the file can
be loaded, the loader that is asked again has the settings of a new loader of that file, whatever
settings it had before. -/
theorem reload_after_failure (h : (loader.reload disk environment).2.outcome = .error fault) :
    let failed := (loader.reload disk environment).1
    failed = ⟨loader.file, .default⟩ ∧
      ∀ laterDisk laterEnvironment layer, AddsLayer laterDisk loader.file layer →
        let again := failed.reload laterDisk laterEnvironment
        again.2.outcome = .ok () ∧ again.1.file = loader.file ∧
          ∀ asked root chosen,
            (chooseFile laterDisk laterEnvironment asked root).outcome = .ok chosen →
            chosen.map laterDisk.spot = loader.file.map laterDisk.spot →
            (start laterDisk laterEnvironment asked root).outcome =
              .ok ⟨chosen, again.1.settings⟩ := by
  intro failed
  have hfailed : failed = ⟨loader.file, .default⟩ := reload_of_fault h
  refine ⟨hfailed, ?_⟩
  intro laterDisk laterEnvironment layer hlayer again
  have hfile : failed.file = loader.file := by rw [hfailed]
  obtain ⟨hloader, houtcome⟩ :=
    reload_of_addsLayer failed (hfile ▸ hlayer) laterEnvironment
  refine ⟨houtcome, by rw [hloader, hfile], ?_⟩
  intro asked root chosen hchosen hspot
  rw [start_of_addsLayer hchosen (hlayer.of_spot hspot), hloader]

end

/-- A list in the place of settings, and a variable for the prefix. The list gives way to settings,
which the loader reads under a path of the project and a new one under the whole path. -/
theorem reload_after_failure_of_list :
    let diskWith (content : Text) : Disk := ⟨(FileSystem.empty.put [] "p".toList .folder).put
      ["p".toList] projectFileName (.file (Utf8.encode content)), ["p".toList]⟩
    let disk := diskWith "- 1\n".toList
    let later := diskWith "tags:\n  prefix: doc\n".toList
    let environment : Environment :=
      ⟨[("GRAPHCHECK_TAGS_PREFIX".toList, "x".toList)], Path.ofText "/u".toList⟩
    let changed : Environment :=
      ⟨[("GRAPHCHECK_VALIDATE_ENABLED".toList, "no".toList)], Path.ofText "/u".toList⟩
    let loader : Loader := ⟨some (Path.ofText projectFileName), []⟩
    let failed := (loader.reload disk environment).1
    failed = ⟨loader.file, .default⟩ ∧
      ∃ settings : Settings, (failed.reload later changed).1.settings = settings ∧
        (start later changed (some "/p/.graphcheck.yml".toList) none).outcome =
          .ok ⟨some ⟨.root, ["p".toList, projectFileName]⟩, settings⟩ ∧
        settings.tagPrefix = "doc".toList ∧ settings.validates = false := by
  intro diskWith disk later environment changed loader failed
  have hfault : (loader.reload disk environment).2.outcome = .error (.badConfiguration
      "Configuration in .graphcheck.yml must be a mapping".toList) :=
    eq_error_of_isFault (by decide +kernel)
  obtain ⟨hfailed, hagain⟩ := reload_after_failure hfault
  have hread : (readLayer later (Path.ofText projectFileName)).outcome.toOption.isSome = true := by
    decide +kernel
  cases hlayer : (readLayer later (Path.ofText projectFileName)).outcome with
  | error fault =>
    rw [hlayer] at hread
    cases hread
  | ok layer =>
    obtain ⟨-, -, hfresh⟩ := hagain later changed layer (.read (by decide +kernel) hlayer)
    exact ⟨hfailed, _, rfl, hfresh _ none (some ⟨.root, ["p".toList, projectFileName]⟩)
      (by decide +kernel) (by decide +kernel), by decide +kernel, by decide +kernel⟩

end Loader

end DocGraph
