/-
# One entry to a name

`write` compares no names: it never answers 1, and a name that is written twice
has two entries, of which the lookups find the first (`not_unique_sample`).
What the driver promises holds in the runs whose writes bring a name that no
used slot of the parent bears: names are unique, and a name reads as last written
(`unique_after_run`).  The runs include those of the external inserter, which
mounts the volume, writes a file with an empty extension, and leaves the disk to
the kernel to mount.
-/

import Jatos.Fat32.Refinement

namespace Jatos
namespace Fat32

open Packed

variable {r : Request} {s s' s₀ s₁ s₂ : State} {o : Reply} {d : ℕ} {n : Bytes 8} {fuel : ℕ}
  {k : Stack} {mem : ℕ → UInt32} {B : List UInt8}

/-! ### The external inserter -/

/-- `main` of `src/external-inserter.c` on a storage image: its globals are zero,
and the request has no extension. -/
def inserterMain (fuel : ℕ) (k : Stack) (r : Request) (imageStorage : Disk) :
    Option (Reply × State) :=
  write fuel k { r with ext := 0 } (initializeFilesystemFat32 ⟨imageStorage, fun _ => 0, false⟩)

/-- A call in the kernel, or a run of the inserter on the disk between two mounts
of the kernel, the second with memory `mem`. -/
inductive Event
  | call (op : Op)
  | insert (mem : ℕ → UInt32) (k : Stack) (r : Request)

/-- Serve an event. -/
def serve (fuel : ℕ) : Event → State → Option (Reply × State)
  | .call op, s => exec fuel op s
  | .insert mem k r, s => (inserterMain fuel k r s.disk).map fun (o, t) =>
      (o, initializeFilesystemFat32 ⟨t.disk, mem, t.stray⟩)

/-- The request of an event, as a call of the driver. -/
def Event.op : Event → Op
  | .call op => op
  | .insert _ k r => .write k { r with ext := 0 }

/-- A safe request; a write brings a name that no used slot of the parent bears,
and a file's name is not empty. -/
def Fresh (s : State) (ev : Event) : Prop :=
  Safe s ev.op ∧ ∀ k r, ev.op = .write k r →
    (r.bufferSize ≠ 0 → r.name ≠ 0) ∧ NoEntry s r.parent r.name

/-! ### Steps -/

/-- Only the disk and the table matter to a safe request. -/
theorem Kept.safe {op : Op} (hk : Kept s s') (hs : Safe s op) : Safe s' op := by
  have hfree : freeList s'.mem = freeList s.mem := freeList_congr hk.mem
  cases op with
  | read r => exact hk.live hs
  | readDirectory r => exact hk.live hs
  | write k r =>
      refine ⟨hk.live hs.1, ?_⟩
      rw [Fits, TurnedDown, hfree, hk.table]
      exact hs.2
  | delete peek r =>
      have htest : ∀ i, emptinessTest peek s' r.parent i = emptinessTest peek s r.parent i :=
        fun i => by rw [emptinessTest, emptinessTest, hk.table, hk.cluster]
      refine ⟨hk.live hs.1, ?_⟩
      simp only [htest, hk.table]
      exact hs.2

/-- **An event has the effect of its request**, with mounts before and after. -/
theorem serve_effect {ev : Event} (h : Sound s) (hs : Safe s ev.op) (hfuel : 512 ≤ fuel)
    (hx : serve fuel ev s = some (o, s')) :
    ∃ t t', Kept s t ∧ Effect t ev.op o t' ∧ Kept t' s' := by
  cases ev with
  | call op => exact ⟨s, s', .refl s, exec_effect h.toWellFormed hs hfuel hx, .refl s'⟩
  | insert mem k r =>
      rw [serve, inserterMain, Option.map_eq_some_iff] at hx
      obtain ⟨⟨o', t'⟩, hw, hmount⟩ := hx
      obtain ⟨rfl, rfl⟩ := Prod.mk.inj hmount
      have hk := initializeFilesystemFat32_kept h.toMounted (fun _ => 0) false
      have he := exec_effect (hk.sound h).toWellFormed (hk.safe hs) hfuel hw
      have ht : Sound t' := he.sound (hk.live hs.live) (hk.sound h)
      exact ⟨_, t', hk, he, initializeFilesystemFat32_kept ht.toMounted mem _⟩

/-- A run of the inserter with a safe request returns. -/
theorem insert_returns (mem : ℕ → UInt32) (h : Sound s)
    (hs : Safe s (.write k { r with ext := 0 })) (hfuel : 2 ≤ fuel) :
    ∃ o s', serve fuel (.insert mem k r) s = some (o, s') := by
  have hk := initializeFilesystemFat32_kept h.toMounted (fun _ => 0) false
  obtain ⟨o, t, hx, -⟩ := write_effect (hk.sound h).toWellFormed (hk.safe hs) hfuel
  refine ⟨o, initializeFilesystemFat32 ⟨t.disk, mem, t.stray⟩, ?_⟩
  rw [serve, inserterMain, hx]
  rfl

/-- **One fresh event** keeps names unique. -/
theorem distinct_step {ev : Event} (h : Sound s ∧ Distinct s) (hf : Fresh s ev)
    (hfuel : 512 ≤ fuel) (hx : serve fuel ev s = some (o, s')) : Sound s' ∧ Distinct s' := by
  obtain ⟨t, t', hk, he, hk'⟩ := serve_effect h.1 hf.1 hfuel hx
  have ht := hk.sound h.1
  have hwf := ht.toWellFormed
  refine ⟨hk'.sound (he.sound (hk.live hf.1.live) ht), hk'.distinct ?_⟩
  have hdist := hk.distinct h.2
  generalize hop : ev.op = op at he
  cases he with
  | kept hkept _ _ _ => exact hkept.distinct hdist
  | made _ _ hm => exact hm.distinct hwf (hk.noEntry (hf.2 _ _ hop).2) hdist
  | dropped _ _ _ _ hr => exact hr.distinct hwf hdist

/-- **Every fresh run** keeps names unique. -/
theorem run_distinct {evs : List Event} {os : List Reply} (hfuel : 512 ≤ fuel)
    (h : Sound s ∧ Distinct s) (hg : Runs.Guarded (serve fuel) Fresh evs s)
    (hr : Runs.run (serve fuel) evs s = some (os, s')) : Sound s' ∧ Distinct s' :=
  Runs.run_invariant (I := fun s => Sound s ∧ Distinct s)
    (fun _ _ _ _ hi hf hx => distinct_step hi hf hfuel hx) h hg hr

/-! ### What a name reads -/

/-- The name finds a file with these bytes. -/
def Reads (s : State) (d : ℕ) (n : Bytes 8) (B : List UInt8) : Prop :=
  ∃ k, LiveEntry s d k ∧ findSlot (s.table d) n = some k ∧ Holds s d k (.file B)

/-- A file reads the same in a kept state. -/
theorem Kept.reads (hk : Kept s s') (h : WellFormed s) (hr : Reads s d n B) : Reads s' d n B := by
  obtain ⟨k, he, hi, hB⟩ := hr
  exact ⟨k, hk.entry_iff.2 he, by rw [hk.table, hi], hk.holds h he hB⟩

/-- An entry of another name does not come between. -/
theorem Made.reads {e : DirectoryEntry} {F : List ℕ} (hm : Made r e F s s') (h : WellFormed s)
    (hp : LiveDir s r.parent) (hfresh : NoEntry s r.parent r.name) (hr : Reads s d n B) :
    Reads s' d n B := by
  obtain ⟨k, he, hi, hB⟩ := hr
  have hk := hm.table_used h he.dir he.used
  obtain ⟨hname, hfirst⟩ := findSlot_eq_some_iff.1 hi
  refine ⟨k, hm.entry h he, findSlot_eq_some_iff.2 ⟨by rw [hk, hname], fun j hj => ?_⟩,
    hm.holds h hp he hB⟩
  rcases hm.slot_cases h he.dir j with hold | ⟨rfl, -, hnew⟩
  · rw [hold]
    exact hfirst j hj
  · rw [hnew, hm.name]
    exact fun hn => hfresh k he.used (hname.trans hn.symm)

/-- Dropping another entry does not matter. -/
theorem Dropped.reads {i : Fin 64} {F : List ℕ} (hr : Dropped r i F s s')
    (hfound : findSlot (s.table r.parent) r.name = some i) (h : WellFormed s)
    (hd : LiveDir s' d) (hn : n ≠ 0) (hne : ¬(d = r.parent ∧ n = r.name)) (hB : Reads s d n B) :
    Reads s' d n B := by
  obtain ⟨k, he, hi, hB⟩ := hB
  obtain ⟨hname, hfirst⟩ := findSlot_eq_some_iff.1 hi
  have hslot : ∀ j ≤ k, s'.table d j = s.table d j ∨ (s'.table d j).name ≠ n := by
    intro j _
    rcases (hr.slot h hd j).2 with hold | ⟨⟨rfl, rfl⟩, hleft⟩
    · exact Or.inl hold
    · exact Or.inr fun h0 => hn (h0.symm.trans (congrArg DirectoryEntry.name hleft))
  have hk : s'.table d k = s.table d k := by
    rcases (hr.slot h hd k).2 with hold | ⟨⟨rfl, rfl⟩, -⟩
    · exact hold
    · exact absurd ⟨rfl, hname.symm.trans (findSlot_eq_some_iff.1 hfound).1⟩ hne
  have he' : LiveEntry s' d k := ⟨hd, he.slot, hk ▸ he.used⟩
  refine ⟨k, he', findSlot_eq_some_iff.2 ⟨by rw [hk, hname], fun j hj => ?_⟩, hr.holds h he' hB⟩
  rcases hslot j hj.le with hold | hother
  · rw [hold]
    exact hfirst j hj
  · exact hother

/-- A fresh event of a run in which the directory stays and the name is not
deleted in it. -/
def Preserves (fuel : ℕ) (d : ℕ) (n : Bytes 8) (s : State) (ev : Event) : Prop :=
  Fresh s ev ∧ LiveDir s d ∧ ∀ peek r o s', ev.op = .delete peek r → r.parent = d → r.name = n →
    serve fuel ev s = some (o, s') → o.code ≠ 0

/-- **One event** that preserves the name. -/
theorem reads_step {ev : Event} (h : Sound s) (hn : n ≠ 0) (hp : Preserves fuel d n s ev)
    (hfuel : 512 ≤ fuel) (hx : serve fuel ev s = some (o, s')) (hd : LiveDir s' d)
    (hB : Reads s d n B) : Reads s' d n B := by
  obtain ⟨hf, -, hdel⟩ := hp
  obtain ⟨t, t', hk, he, hk'⟩ := serve_effect h hf.1 hfuel hx
  have ht := hk.sound h
  have hwf := ht.toWellFormed
  have hlive := hk.live hf.1.live
  have ht' := he.sound hlive ht
  have hB' := hk.reads h.toWellFormed hB
  refine hk'.reads ht'.toWellFormed ?_
  generalize hop : ev.op = op at he hlive
  cases he with
  | kept hkept _ _ _ => exact hkept.reads hwf hB'
  | made _ _ hm => exact hm.reads hwf hlive (hk.noEntry (hf.2 _ _ hop).2) hB'
  | @dropped peek r _ _ _ _ hcode _ _ hfound hr =>
      refine hr.reads hfound hwf (hk'.live_iff.1 hd) hn ?_ hB'
      rintro ⟨rfl, rfl⟩
      exact hdel peek r o s' hop rfl rfl hx hcode

/-- **Every run** that preserves the name. -/
theorem run_reads {evs : List Event} {os : List Reply} (hfuel : 512 ≤ fuel) (hn : n ≠ 0)
    (h : Sound s) (hB : Reads s d n B)
    (hg : Runs.Guarded (serve fuel) (Preserves fuel d n) evs s)
    (hr : Runs.run (serve fuel) evs s = some (os, s')) (hd : LiveDir s' d) : Reads s' d n B := by
  have hinv : Sound s' ∧ (LiveDir s' d → Reads s' d n B) := by
    refine Runs.run_invariant (I := fun s => Sound s ∧ (LiveDir s d → Reads s d n B))
      (fun s ev o s' hi hp hx => ?_) ⟨h, fun _ => hB⟩ hg hr
    obtain ⟨t, t', hk, he, hk'⟩ := serve_effect hi.1 hp.1.1 hfuel hx
    exact ⟨hk'.sound (he.sound (hk.live hp.1.1.live) (hk.sound hi.1)),
      fun hd => reads_step hi.1 hn hp hfuel hx hd (hi.2 hp.2.1)⟩
  exact hinv.2 hd

/-- A fresh write of a file that answers 0 is found with its bytes. -/
theorem write_reads {ev : Event} (h : Sound s) (hf : Fresh s ev) (hop : ev.op = .write k r)
    (hs : r.bufferSize ≠ 0) (hfuel : 512 ≤ fuel) (hx : serve fuel ev s = some (o, s'))
    (hcode : o.code = 0) : Reads s' r.parent r.name r.bytes := by
  obtain ⟨t, t', hk, he, hk'⟩ := serve_effect h hf.1 hfuel hx
  have ht := hk.sound h
  have hwf := ht.toWellFormed
  have hlive := hk.live hf.1.live
  have ht' := he.sound hlive ht
  have hfresh := hk.noEntry (hf.2 _ _ hop).2
  refine hk'.reads ht'.toWellFormed ?_
  rw [hop] at he hlive
  cases he with
  | kept _ hc _ _ => exact absurd hcode (hc k r rfl)
  | @made _ _ _ e F _ _ hj hm =>
      obtain ⟨j, hj⟩ := Option.isSome_iff_exists.1 (hj hs)
      have hnew := hm.slot_new hj
      have hfile := hm.holds_new hnew
      rw [Request.node, if_neg hs] at hfile
      refine ⟨j, hm.entry_new hwf hlive hj, findSlot_eq_some_iff.2
        ⟨by rw [hnew, hm.name], fun i hi => ?_⟩, hfile⟩
      rw [hm.table_parent hj, Function.update_of_ne hi.ne]
      exact hfresh i ((freeSlot_eq_some_iff.1 hj).2 i hi)

/-- The bytes that a name finds are read. -/
theorem Reads.read {r' : Request} (hB : Reads s r'.parent r'.name B) (h : WellFormed s)
    (hn : r'.name ≠ 0) (hsize : B.length ≤ r'.bufferSize.toNat) (hfuel : 512 ≤ fuel) :
    ∃ buf, Fat32.read fuel r' s = some (⟨0, buf⟩, s) ∧ ∀ i (hi : i < B.length), buf i = B[i] := by
  obtain ⟨k, he, hi, hB⟩ := hB
  exact hB.read h he hn hi hsize hfuel

/-- **One entry to a name, and a name reads as last written.**  In the state that
a fresh run from a fresh volume reaches, no two used slots of a directory have
the same name and extension; and after a fresh write of a file that answers 0,
in the kernel or through the inserter, and any events that preserve the name, a
read of the name returns its bytes. -/
theorem unique_after_run {evs : List Event} {os : List Reply} (hfuel : 512 ≤ fuel)
    (hg : Runs.Guarded (serve fuel) Fresh evs (createFat32 s₀))
    (hr : Runs.run (serve fuel) evs (createFat32 s₀) = some (os, s)) :
    (∀ d, LiveDir s d → ∀ i j, (s.table d i).Used → (s.table d j).Used →
      (s.table d i).name = (s.table d j).name → (s.table d i).ext = (s.table d j).ext → i = j) ∧
    ∀ ev k r o s₁, Fresh s ev → ev.op = .write k r → r.bufferSize ≠ 0 →
      serve fuel ev s = some (o, s₁) → o.code = 0 → ∀ evs' os' s₂,
      Runs.Guarded (serve fuel) (Preserves fuel r.parent r.name) evs' s₁ →
      Runs.run (serve fuel) evs' s₁ = some (os', s₂) → LiveDir s₂ r.parent →
      ∀ r' : Request, r'.parent = r.parent → r'.name = r.name →
        r.bufferSize.toNat ≤ r'.bufferSize.toNat →
        ∃ buf, Fat32.read fuel r' s₂ = some (⟨0, buf⟩, s₂) ∧
          ∀ i < r.bufferSize.toNat, buf i = r.buf i := by
  obtain ⟨h, hdist⟩ := run_distinct hfuel ⟨createFat32_sound s₀, createFat32_distinct s₀⟩ hg hr
  refine ⟨fun d hd i j hi hj hname _ => hdist d hd i j hi hj hname, ?_⟩
  intro ev k r o s₁ hf hop hs hx hcode evs' os' s₂ hg' hr' hd r' hpar hname hsize
  have hn := (hf.2 k r hop).1 hs
  obtain ⟨t, t', hk, he, hk'⟩ := serve_effect h hf.1 hfuel hx
  have h₁ : Sound s₁ := hk'.sound (he.sound (hk.live hf.1.live) (hk.sound h))
  have hB := run_reads hfuel hn h₁ (write_reads h hf hop hs hfuel hx hcode) hg' hr' hd
  have hsound : Sound s₂ := by
    refine Runs.run_invariant (I := Sound) (fun s ev o s' hi hp hx => ?_) h₁ hg' hr'
    obtain ⟨t, t', hk, he, hk'⟩ := serve_effect hi hp.1.1 hfuel hx
    exact hk'.sound (he.sound (hk.live hp.1.1.live) (hk.sound hi))
  rw [← hpar, ← hname] at hB
  obtain ⟨buf, hread, hbuf⟩ := hB.read hsound.toWellFormed (hname ▸ hn)
    (by rwa [r.length_bytes]) hfuel
  refine ⟨buf, hread, fun i hi => ?_⟩
  rw [hbuf i (by rwa [r.length_bytes])]
  simp [Request.bytes]

/-- After the inserter has put a file into a blank volume. -/
theorem unique_after_run_sample :
    ∃ os s, Runs.run (serve 512) [.insert (fun _ => 7) blankStack (request 2 0x61 0x78 3000)]
        (createFat32 blank) = some (os, s) ∧
      (∀ d, LiveDir s d → ∀ i j, (s.table d i).Used → (s.table d j).Used →
        (s.table d i).name = (s.table d j).name → (s.table d i).ext = (s.table d j).ext → i = j) ∧
      ∀ ev k r o s₁, Fresh s ev → ev.op = .write k r → r.bufferSize ≠ 0 →
        serve 512 ev s = some (o, s₁) → o.code = 0 → ∀ evs' os' s₂,
        Runs.Guarded (serve 512) (Preserves 512 r.parent r.name) evs' s₁ →
        Runs.run (serve 512) evs' s₁ = some (os', s₂) → LiveDir s₂ r.parent →
        ∀ r' : Request, r'.parent = r.parent → r'.name = r.name →
          r.bufferSize.toNat ≤ r'.bufferSize.toNat →
          ∃ buf, Fat32.read 512 r' s₂ = some (⟨0, buf⟩, s₂) ∧
            ∀ i < r.bufferSize.toNat, buf i = r.buf i := by
  have ht := createFat32_tidy blank
  have hw : Admits (createFat32 blank)
      (.write blankStack { request 2 0x61 0x78 3000 with ext := 0 }) :=
    createFat32_admits blank_zeroed rfl (by decide) (by decide) (by decide)
  have hs := hw.safe ht
  have hf : Fresh (createFat32 blank)
      (.insert (fun _ => 7) blankStack (request 2 0x61 0x78 3000)) := by
    refine ⟨hs, fun k r hop => ?_⟩
    obtain ⟨rfl, rfl⟩ := Op.write.inj hop
    exact ⟨fun _ => hw.2.1, hw.2.2.1.noEntry⟩
  have hg : Runs.Guarded (serve 512) Fresh
      [.insert (fun _ => 7) blankStack (request 2 0x61 0x78 3000)] (createFat32 blank) :=
    ⟨hf, fun _ _ _ => trivial⟩
  obtain ⟨o, s, hx⟩ := insert_returns (fun _ => 7) ht.sound hs (by decide : 2 ≤ 512)
  have hr : Runs.run (serve 512) [.insert (fun _ => 7) blankStack (request 2 0x61 0x78 3000)]
      (createFat32 blank) = some ([o], s) := Runs.run_cons_eq hx rfl
  exact ⟨_, s, hr, unique_after_run le_rfl hg hr⟩

/-- A folder is made twice under one name in the root of a blank volume: both
requests answer 0, and there are two used entries with one name and extension. -/
theorem not_unique_sample :
    ∃ os s, Runs.run (exec 512) [.write blankStack (request 2 0x61 0 0),
        .write blankStack (request 2 0x61 0 0)] (createFat32 blank) = some (os, s) ∧
      os.map Reply.code = [0, 0] ∧ (s.table 2 1).Used ∧ (s.table 2 2).Used ∧
      (s.table 2 1).name = (s.table 2 2).name ∧ (s.table 2 1).ext = (s.table 2 2).ext := by
  obtain ⟨o, F, s₁, o', f, F', s₂, ⟨hw, ho, -⟩, ⟨hw', ho', -⟩, ⟨he, hx⟩, he', hy⟩ :=
    createFat32_writes (request 2 0x61 0 0) (request 2 0x61 0 0) blankStack blank_zeroed rfl rfl
      (by decide) (by decide : 2 ≤ 512)
  refine ⟨_, s₂, Runs.run_cons_eq hw (Runs.run_cons_eq hw' rfl), ?_, he.used, he'.used, ?_⟩
  · rw [List.map_cons, List.map_cons, ho, ho', List.map_nil]
  · rw [hx, hy]
    exact ⟨rfl, rfl⟩

end Fat32
end Jatos
