import DiskBringup.Proofs.WrittenLines
import DiskBringup.Storage.Basic

/-!
# Which configurations boot arguments describe

Boot arguments describe the valid configurations of one form: no partition, partition 1, or
partitions 1 and 2, of one type and with mount points that are words. What comes out of a line has
that form because its settings are fit (`Settings.Writable.expressible`); and a configuration of
that form spells out settings (`Config.settings`) that a line comes to.
-/

namespace DiskBringup

open BootArgs

namespace Config

/-- The form of the configurations that boot arguments describe. -/
structure Expressible (c : Config) : Prop where
  /-- the primary partition comes first -/
  numbers : c.partitions.map (·.number) ∈ [[], [1], [1, 2]]
  /-- all partitions have one type, which is no unused entry's -/
  kinds : ∃ kind ≠ 0, ∀ spec ∈ c.partitions, spec.kind = kind
  /-- mount points are absolute paths that stay in one word -/
  mounts : ∀ spec ∈ c.partitions, IsMountPoint spec.mountPoint

/-- The settings that spell a configuration out. -/
def settings (c : Config) : Settings where
  primary := c.partitions[0]?.map fun spec => ⟨spec.size, some spec.start⟩
  secondary := c.partitions[1]?.map fun spec => ⟨spec.size, some spec.start⟩
  mountPrimary := c.partitions[0]?.map (·.mountPoint)
  mountSecondary := c.partitions[1]?.map (·.mountPoint)
  autoPartition := some c.autoPartition
  kind := c.partitions[0]?.map (·.kind)

theorem Expressible.writable_settings {c : Config} (hc : c.Expressible) : c.settings.Writable where
  kind := by
    obtain ⟨kind, hne, hkinds⟩ := hc.kinds
    intro h
    obtain ⟨spec, hspec, hzero⟩ := Option.map_eq_some_iff.1 h
    exact hne ((hkinds spec (List.mem_of_getElem? hspec)).symm.trans hzero)
  mountPrimary mount h := by
    obtain ⟨spec, hspec, rfl⟩ := Option.map_eq_some_iff.1 h
    exact hc.mounts spec (List.mem_of_getElem? hspec)
  mountSecondary mount h := by
    obtain ⟨spec, hspec, rfl⟩ := Option.map_eq_some_iff.1 h
    exact hc.mounts spec (List.mem_of_getElem? hspec)

/-- Settings that spell a configuration out come to its partitions. -/
theorem Expressible.partitions_settings {c : Config} (hc : c.Expressible) :
    c.settings.partitions = .ok c.partitions := by
  obtain ⟨kind, -, hkinds⟩ := hc.kinds
  have hnumbers := hc.numbers
  obtain ⟨specs, auto⟩ := c
  match specs with
  | [] => rfl
  | [⟨number, start, size, kind₁, mount⟩] =>
    obtain rfl : number = 1 := by simpa using hnumbers
    rfl
  | [⟨number, start, size, kind₁, mount⟩, ⟨number₂, start₂, size₂, kind₂, mount₂⟩] =>
    obtain ⟨rfl, rfl⟩ : number = 1 ∧ number₂ = 2 := by simpa using hnumbers
    obtain ⟨rfl, rfl⟩ : kind₁ = kind ∧ kind₂ = kind := by simpa using hkinds
    rfl
  | _ :: _ :: _ :: _ => simp at hnumbers

theorem Expressible.config_settings {c : Config} (hc : c.Expressible) (hv : c.validate = .ok ()) :
    c.settings.config = .ok c := by
  have hsame : (⟨c.partitions, c.settings.autoPartition.getD false⟩ : Config) = c := rfl
  simp only [Settings.config, hc.partitions_settings, hsame, hv]

end Config

namespace BootArgs

/-! ## What comes out of a line -/

theorem isMountPoint_fs : IsMountPoint "/fs" := ⟨rfl, by decide, by decide⟩

theorem isMountPoint_fs2 : IsMountPoint "/fs2" := ⟨rfl, by decide, by decide⟩

theorem Settings.Writable.kind_getD {s : Settings} (hs : s.Writable) :
    s.kind.getD linuxKind ≠ 0 := by
  cases h : s.kind with
  | none => decide
  | some kind => exact fun hzero => hs.kind (h.trans (congrArg some hzero))

/-- A configuration made from settings has their partitions. -/
theorem Settings.partitions_of_config {s : Settings} {c : Config} (h : s.config = .ok c) :
    s.partitions = .ok c.partitions := by
  unfold config at h
  split at h
  case h_1 => cases h
  case h_2 specs hspecs =>
    simp only at h
    split at h
    case h_1 => cases h
    case h_2 => exact Except.ok.inj h ▸ hspecs

/-- Settings speak of no partition, of the primary one, or of both. -/
theorem Settings.partitions_cases {s : Settings} {specs : List PartitionSpec}
    (h : s.partitions = .ok specs) :
    specs = [] ∨ (∃ place, specs = [s.primarySpec place]) ∨ ∃ place place₂,
      specs = [s.primarySpec place, s.secondarySpec (s.primarySpec place) place₂] := by
  unfold partitions at h
  split at h
  case isTrue => cases h
  case isFalse =>
    split at h
    case isTrue => cases h
    case isFalse =>
      split at h <;> cases h
      case h_1 => exact .inl rfl
      case h_3 place _ _ => exact .inr (.inl ⟨place, rfl⟩)
      case h_4 place place₂ _ _ => exact .inr (.inr ⟨place, place₂, rfl⟩)

/-- Fit settings come to configurations of the form. -/
theorem Settings.Writable.expressible {s : Settings} (hs : s.Writable) {c : Config}
    (h : s.config = .ok c) : c.Expressible := by
  have hmount : IsMountPoint (s.mountPrimary.getD "/fs") := by
    cases h : s.mountPrimary with
    | none => exact isMountPoint_fs
    | some mount => exact hs.mountPrimary mount h
  have hmount₂ : IsMountPoint (s.mountSecondary.getD "/fs2") := by
    cases h : s.mountSecondary with
    | none => exact isMountPoint_fs2
    | some mount => exact hs.mountSecondary mount h
  obtain hnone | ⟨place, hone⟩ | ⟨place, place₂, hboth⟩ :=
    partitions_cases (partitions_of_config h)
  · exact ⟨by simp [hnone], ⟨1, by decide, by simp [hnone]⟩, by simp [hnone]⟩
  · exact ⟨by simp [hone, primarySpec, PartitionSpec.primary],
      ⟨_, hs.kind_getD, by simp [hone, primarySpec]⟩, by simpa [hone, primarySpec] using hmount⟩
  · exact ⟨by simp [hboth, primarySpec, secondarySpec, PartitionSpec.primary,
        PartitionSpec.secondary],
      ⟨_, hs.kind_getD, by simp [hboth, primarySpec, secondarySpec]⟩,
      by simpa [hboth, primarySpec, secondarySpec] using ⟨hmount, hmount₂⟩⟩

/-- The value of an argument stays in the word that it is a part of. -/
theorem unbroken_of_lastValue? {line : String} {key : Key} {value : String}
    (h : lastValue? key (arguments line) = some value) : Unbroken value := by
  obtain ⟨word, hword, harg⟩ := List.mem_map.1 (mem_of_lastValue? h)
  unfold Argument.ofWord at harg
  split at harg
  case h_1 => cases harg
  case h_2 name text hsplit =>
    split at harg
    case h_1 => cases harg
    case h_2 =>
      cases harg
      intro c hc
      rw [String.toList_ofList] at hc
      refine (of_mem_words hword).2 c ?_
      rw [(splitOnce_eq_some_iff.1 hsplit).1]
      simp [hc]

theorem toOption_eq_some_iff {α : Type} {x : Except ConfigError α} {a : α} :
    x.toOption = some a ↔ x = .ok a := by
  cases x <;> simp [Except.toOption]

/-- What is read from a line is fit. -/
theorem writable_ofValues (line : String) :
    (Settings.ofValues fun key => lastValue? key (arguments line)).Writable := by
  have hmount : ∀ (key : Key) (mount : String),
      ((lastValue? key (arguments line)).bind fun value => (parseMount value).toOption) =
        some mount → IsMountPoint mount := by
    intro key mount h
    obtain ⟨value, hlast, hvalue⟩ := Option.bind_eq_some_iff.1 h
    obtain ⟨rfl, absolute, named⟩ := parseMount_eq_ok_iff.1 (toOption_eq_some_iff.1 hvalue)
    exact ⟨absolute, named, unbroken_of_lastValue? hlast⟩
  refine ⟨fun h => ?_, hmount .mountPrimary, hmount .mountSecondary⟩
  obtain ⟨value, -, hvalue⟩ := Option.bind_eq_some_iff.1 h
  have hkind := toOption_eq_some_iff.1 hvalue
  unfold parseKind at hkind
  split at hkind
  case h_2 => cases hkind
  case h_1 n _ =>
    split at hkind
    case isFalse => cases hkind
    case isTrue hn =>
      have hzero := congrArg UInt8.toNat (Except.ok.inj hkind)
      rw [UInt8.toNat_ofNat_of_lt' hn.2] at hzero
      exact absurd hzero hn.1.ne'

/-- Two sizes alone describe two partitions that follow each other. -/
theorem value_parse_sizes (size size₂ : UInt64) :
    (parse s!"storage.primary={size} storage.secondary={size₂}").value =
      let first := PartitionSpec.primary size
      let c := Config.partitioned first (some (.secondary first size₂))
      match c.validate with
      | .ok () => .ok c
      | .error err => .error (.layout err) := by
  let s : Settings := { primary := some ⟨size, none⟩, secondary := some ⟨size₂, none⟩ }
  let c := Config.partitioned (.primary size) (some (.secondary (.primary size) size₂))
  have hs : s.Writable := ⟨by simp [s], by simp [s], by simp [s]⟩
  have hline : "storage.primary=" ++ toString size ++ " storage.secondary=" ++ toString size₂ =
      s.line := by
    refine String.toList_inj.1 ?_
    simp [s, Settings.line, commandLine, Key.all, Settings.text?, settingText, Key.text, Place.text]
  have hconfig : s.config =
      match c.validate with
      | .ok () => .ok c
      | .error err => .error (.layout err) := by
    have hpartitions : s.partitions = .ok c.partitions := rfl
    have hsame : (⟨c.partitions, s.autoPartition.getD false⟩ : Config) = c := rfl
    rw [Settings.config, hpartitions]
    simp only [hsame]
    cases c.validate <;> rfl
  calc (parse s!"storage.primary={size} storage.secondary={size₂}").value
    _ = (parse s.line).value := congrArg (fun line => (parse line).value) hline
    _ = s.config := hs.value_parse_line
    _ = _ := hconfig

/-- Boot arguments describe exactly the valid configurations of their form, storage can be made of
each of them, and two sizes alone describe two partitions that follow each other. -/
theorem parse_exact :
    (∀ c : Config, (∃ line, (parse line).value = .ok c) ↔ c.validate = .ok () ∧ c.Expressible) ∧
      (∀ line c device hasFactory, (parse line).value = .ok c →
        ∃ s, (Storage.new device c hasFactory).value = .ok s) ∧
      ∀ size size₂ : UInt64,
        (parse s!"storage.primary={size} storage.secondary={size₂}").value =
          let first := PartitionSpec.primary size
          let c := Config.partitioned first (some (.secondary first size₂))
          match c.validate with
          | .ok () => .ok c
          | .error err => .error (.layout err) := by
  refine ⟨fun c => ⟨fun ⟨line, h⟩ => ?_, fun ⟨hv, hc⟩ => ?_⟩, fun line c device hasFactory h => ?_,
    value_parse_sizes⟩
  · refine ⟨validate_of_parse h, ?_⟩
    rw [value_parse] at h
    split at h
    case h_1 => cases h
    case h_2 => exact (writable_ofValues line).expressible h
  · exact ⟨_, hc.writable_settings.value_parse_line.trans (hc.config_settings hv)⟩
  · exact ⟨_, Storage.new_eq_ok_iff.2 ⟨validate_of_parse h, rfl⟩⟩

/-- A configuration with a type and a mount point of its own is described by some line, and what a
line describes has the form and makes storage. -/
theorem parse_exact_of_lines :
    (∃ line, (parse line).value = .ok ⟨[⟨1, 512, 1024, 7, "/a=b"⟩], true⟩) ∧
      (Config.partitioned (.primary 4096) none).Expressible ∧
      ∃ s, (Storage.new none (Config.partitioned (.primary 4096) none) true).value = .ok s := by
  have hline : (parse "storage.primary=4K").value =
      .ok (Config.partitioned (.primary 4096) none) := by decide +kernel
  refine ⟨(parse_exact.1 _).2 ⟨by decide, by simp, ⟨7, by decide, by simp⟩, ?_⟩,
    ((parse_exact.1 _).1 ⟨_, hline⟩).2, parse_exact.2.1 _ _ _ _ hline⟩
  simpa using (⟨rfl, by decide, by decide⟩ : IsMountPoint "/a=b")

end BootArgs

end DiskBringup
