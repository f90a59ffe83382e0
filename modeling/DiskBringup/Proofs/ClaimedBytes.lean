import DiskBringup.BootArgs.CommandLine
import DiskBringup.Proofs.Placement

/-!
# Which bytes valid configurations claim

A partition claims as many bytes as its size says, from its start on. These are exact numbers and
may lie past the last word, while its `stop` is a word and comes after byte `2 ^ 64 - 2` at the
latest. Partitions are compared by their stops, so a byte that two of them claim is seen if it comes
before `lastByte`, and not otherwise (`PartitionSpec.overlaps_iff_exists_holds`). Hence a
configuration is valid if it is `WellNumbered` and no byte before `lastByte` is claimed twice; and
then two of its partitions claim a byte both exactly if they both claim `lastByte`
(`Config.validate_exact`). Where the secondary partition starts at the stop of a primary partition
that goes past the last word, they do (`PartitionSpec.exists_holds_iff_of_start_eq`).
-/

namespace DiskBringup

namespace PartitionSpec

variable {a b s : PartitionSpec} {n : Nat}

/-- The largest word, which is the first byte that no stop comes after. -/
def lastByte : Nat := 2 ^ 64 - 1

theorem start_le_lastByte (s : PartitionSpec) : s.start.toNat ≤ lastByte := by
  have := s.start.toNat_lt
  rw [lastByte]
  omega

/-- A stop bounds the bytes before the last one as the exact end does. -/
theorem lt_stop_iff (hn : n < lastByte) :
    n < s.stop.toNat ↔ n < s.start.toNat + s.size.toNat := by
  rw [lastByte] at hn
  rw [toNat_stop]
  omega

/-- Two partitions that are not empty overlap if they claim a byte before the last one both. -/
theorem overlaps_iff_exists_holds (ha : a.size ≠ 0) (hb : b.size ≠ 0) :
    a.overlaps b = true ↔ ∃ n < lastByte, a.Holds n ∧ b.Holds n := by
  have hlt : a.overlaps b = true ↔
      a.start.toNat < b.stop.toNat ∧ b.start.toNat < a.stop.toNat := by
    rw [overlaps, Bool.and_eq_true, decide_eq_true_iff, decide_eq_true_iff,
      UInt64.lt_iff_toNat_lt, UInt64.lt_iff_toNat_lt]
  rw [hlt]
  constructor
  · rintro ⟨hab, hba⟩
    -- the later start is claimed by both, and comes before a stop
    have hmax : max a.start.toNat b.start.toNat < lastByte := by
      have := toNat_stop a
      have := toNat_stop b
      rw [lastByte]
      omega
    have ha' := Word.toNat_pos ha
    have hb' := Word.toNat_pos hb
    rw [lt_stop_iff (by omega)] at hab hba
    refine ⟨_, hmax, ?_, ?_⟩ <;> rw [Holds] <;> omega
  · rintro ⟨n, hn, ⟨ha₁, ha₂⟩, ⟨hb₁, hb₂⟩⟩
    rw [← lt_stop_iff hn] at ha₂ hb₂
    omega

/-- A byte from the last one on is claimed only along with the last one. -/
theorem holds_lastByte_of_le (hn : lastByte ≤ n) (h : s.Holds n) : s.Holds lastByte :=
  ⟨s.start_le_lastByte, Nat.lt_of_le_of_lt hn h.2⟩

/-- Where no byte before the last one is claimed by both, some byte is exactly if the last one
is. -/
theorem exists_holds_iff_lastByte (h : ∀ n, a.Holds n → b.Holds n → lastByte ≤ n) :
    (∃ n, a.Holds n ∧ b.Holds n) ↔ a.Holds lastByte ∧ b.Holds lastByte := by
  constructor
  · rintro ⟨n, ha, hb⟩
    have hn := h n ha hb
    exact ⟨holds_lastByte_of_le hn ha, holds_lastByte_of_le hn hb⟩
  · exact fun hlast => ⟨lastByte, hlast⟩

/-- A partition at the stop of another claims a byte of it exactly if that one goes past the last
word. -/
theorem exists_holds_iff_of_start_eq (ha : a.size ≠ 0) (hb : b.size ≠ 0) (h : b.start = a.stop) :
    (∃ n, a.Holds n ∧ b.Holds n) ↔ 2 ^ 64 ≤ a.start.toNat + a.size.toNat := by
  have hstart : b.start.toNat = min (a.start.toNat + a.size.toNat) (2 ^ 64 - 1) := by
    rw [h, toNat_stop]
  have hpos := Word.toNat_pos ha
  have hpos' := Word.toNat_pos hb
  simp only [Holds]
  constructor
  · rintro ⟨n, ⟨-, hn⟩, ⟨hle, -⟩⟩
    omega
  · intro hpast
    have := a.start.toNat_lt
    exact ⟨2 ^ 64 - 1, by omega, by omega⟩

end PartitionSpec

namespace Config

open PartitionSpec (lastByte)

/-- What is asked of a configuration besides where its partitions lie. -/
structure WellNumbered (c : Config) : Prop where
  /-- there are two partitions at most -/
  count_le : c.partitions.length ≤ 2
  /-- each has the number of an entry -/
  number_mem : ∀ s ∈ c.partitions, 1 ≤ s.number.toNat ∧ s.number.toNat ≤ 4
  /-- none is empty -/
  size_ne : ∀ s ∈ c.partitions, s.size ≠ 0
  /-- no number is used twice -/
  distinct : c.partitions.Pairwise fun a b => a.number ≠ b.number

/-- No byte is claimed twice. -/
def Disjoint (c : Config) : Prop :=
  c.partitions.Pairwise fun a b => ∀ n, ¬ (a.Holds n ∧ b.Holds n)

/-- The last byte is not claimed twice. -/
def LastByteOnce (c : Config) : Prop :=
  c.partitions.Pairwise fun a b => ¬ (a.Holds lastByte ∧ b.Holds lastByte)

variable {c : Config}

/-- A configuration is valid if it is well numbered and its partitions claim no byte twice that
comes before the last one. -/
theorem validate_iff_wellNumbered :
    c.validate = .ok () ↔ c.WellNumbered ∧
      c.partitions.Pairwise fun a b => ∀ n, a.Holds n → b.Holds n → lastByte ≤ n := by
  have hchecked : (∀ s ∈ c.partitions, s.check = .ok ()) ↔
      (∀ s ∈ c.partitions, 1 ≤ s.number.toNat ∧ s.number.toNat ≤ 4) ∧
        ∀ s ∈ c.partitions, s.size ≠ 0 := by
    simp only [PartitionSpec.check_eq_ok_iff]
    exact ⟨fun h => ⟨fun s hs => (h s hs).1, fun s hs => (h s hs).2⟩,
      fun h s hs => ⟨h.1 s hs, h.2 s hs⟩⟩
  have hapart : (∀ s ∈ c.partitions, s.size ≠ 0) → (c.partitions.Pairwise PartitionSpec.Apart ↔
      (c.partitions.Pairwise fun a b => a.number ≠ b.number) ∧
        c.partitions.Pairwise fun a b => ∀ n, a.Holds n → b.Holds n → lastByte ≤ n) := by
    intro hsize
    rw [← List.pairwise_and_iff]
    refine List.Pairwise.iff_of_mem fun {a b} ha hb => ?_
    rw [PartitionSpec.Apart, Bool.eq_false_iff, ne_eq (PartitionSpec.overlaps _ _),
      PartitionSpec.overlaps_iff_exists_holds (hsize b hb) (hsize a ha)]
    refine and_congr_right fun _ => ⟨fun h n hna hnb => ?_, ?_⟩
    · exact Nat.not_lt.1 fun hlt => h ⟨n, hlt, hnb, hna⟩
    · rintro h ⟨n, hlt, hnb, hna⟩
      exact Nat.not_lt.2 (h n hna hnb) hlt
  rw [validate_eq_ok_iff, hchecked]
  constructor
  · rintro ⟨hcount, ⟨hnumber, hsize⟩, hpairs⟩
    obtain ⟨hdistinct, hbytes⟩ := (hapart hsize).1 hpairs
    exact ⟨⟨hcount, hnumber, hsize, hdistinct⟩, hbytes⟩
  · rintro ⟨⟨hcount, hnumber, hsize, hdistinct⟩, hbytes⟩
    exact ⟨hcount, ⟨hnumber, hsize⟩, (hapart hsize).2 ⟨hdistinct, hbytes⟩⟩

/-- Of a configuration that claims the last byte once, the check decides whether partitions claim a
byte twice. -/
theorem validate_iff_disjoint (h : c.LastByteOnce) :
    c.validate = .ok () ↔ c.WellNumbered ∧ c.Disjoint := by
  rw [validate_iff_wellNumbered]
  refine and_congr_right fun _ => ⟨fun hbytes => ?_, fun hdisjoint => ?_⟩
  · refine h.imp₂ (fun a b hlast hle n hn => ?_) hbytes
    exact hlast ((PartitionSpec.exists_holds_iff_lastByte hle).1 ⟨n, hn⟩)
  · exact hdisjoint.imp fun hnone n hna hnb => absurd ⟨hna, hnb⟩ (hnone n)

/-- Two partitions of a valid configuration claim a byte both exactly if it is the last one. -/
theorem exists_holds_iff_of_validate (h : c.validate = .ok ()) :
    c.partitions.Pairwise fun a b =>
      (∃ n, a.Holds n ∧ b.Holds n) ↔ a.Holds lastByte ∧ b.Holds lastByte :=
  (validate_iff_wellNumbered.1 h).2.imp PartitionSpec.exists_holds_iff_lastByte

/-- The check of a configuration sees each byte before the last one that is claimed twice, and only
these: it decides whether ranges are disjoint unless the last byte is claimed twice. So two
partitions that come from a command line claim a byte both exactly if both claim the last one, which
they do where the second follows a first that goes past the last word. -/
theorem validate_exact (c : Config) :
    (c.validate = .ok () ↔ c.WellNumbered ∧
      c.partitions.Pairwise fun a b => ∀ n, a.Holds n → b.Holds n → lastByte ≤ n) ∧
    (c.LastByteOnce → (c.validate = .ok () ↔ c.WellNumbered ∧ c.Disjoint)) ∧
    ∀ line : String, (BootArgs.parse line).value = .ok c →
      c.WellNumbered ∧
      c.partitions.Pairwise fun a b =>
        ((∃ n, a.Holds n ∧ b.Holds n) ↔ a.Holds lastByte ∧ b.Holds lastByte) ∧
        (b.start = a.stop →
          ((∃ n, a.Holds n ∧ b.Holds n) ↔ 2 ^ 64 ≤ a.start.toNat + a.size.toNat)) := by
  refine ⟨validate_iff_wellNumbered, validate_iff_disjoint, fun line hline => ?_⟩
  have hvalid := BootArgs.validate_of_parse hline
  obtain ⟨hnumbered, -⟩ := validate_iff_wellNumbered.1 hvalid
  refine ⟨hnumbered, (exists_holds_iff_of_validate hvalid).imp_of_mem fun ha hb hlast => ?_⟩
  exact ⟨hlast, PartitionSpec.exists_holds_iff_of_start_eq (hnumbered.size_ne _ ha)
    (hnumbered.size_ne _ hb)⟩

/-- A partition on its own is checked as it should be, and a command line describes two partitions
that claim the last byte both. -/
theorem validate_exact_past_last_word :
    let lone : Config := .partitioned ⟨1, 0, 8192, 131, "/fs"⟩ none
    (lone.validate = .ok () ↔ lone.WellNumbered ∧ lone.Disjoint) ∧
      ∃ a b auto,
        (BootArgs.parse "storage.primary=2@18446744073709551614 storage.secondary=5").value =
          .ok ⟨[a, b], auto⟩ ∧ ∃ n, a.Holds n ∧ b.Holds n := by
  intro lone
  have hline : (BootArgs.parse
      "storage.primary=2@18446744073709551614 storage.secondary=5").value =
        .ok ⟨[⟨1, 18446744073709551614, 2, 131, "/fs"⟩,
          ⟨2, 18446744073709551615, 5, 131, "/fs2"⟩], false⟩ := by
    decide +kernel
  refine ⟨(validate_exact lone).2.1 (List.pairwise_singleton _ _), _, _, _, hline, ?_⟩
  obtain ⟨-, -, hparsed⟩ := validate_exact
    ⟨[⟨1, 18446744073709551614, 2, 131, "/fs"⟩, ⟨2, 18446744073709551615, 5, 131, "/fs2"⟩], false⟩
  have hpair := (List.pairwise_cons.1 (hparsed _ hline).2).1 _ (List.mem_singleton.2 rfl)
  exact (hpair.2 (by decide)).2 (by decide)

end Config

end DiskBringup
