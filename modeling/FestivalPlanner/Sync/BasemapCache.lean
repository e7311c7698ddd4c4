import FestivalPlanner.Lib.InFlight
import FestivalPlanner.Lib.Machine
import FestivalPlanner.Lib.Utf16
import Mathlib.Data.List.Nodup

/-!
# The basemap cache

The archive of a map is kept in a file named by a 32-bit hash of its URL, and the calls under way
are found by the URL itself.  A transfer goes to a staging file of its own, which is renamed when
its length is the one that a HEAD request told, or is not 0 when the request told none.

* `downloadOnce`, `step` — calls, transfers, and files that are cleared or evicted;
* `Staged`, `Served` — the staging files, and the file that a result names;
* `Careful` — no hit on the archive of another URL, no archive that is short unnoticed;
* `staged_and_served_iff` — the staging files are as they should be, and the results are exactly
  in the careful runs.
-/

namespace FestivalPlanner.BasemapCache

open List Option Function Machine InFlight Utf16

/-! ## Files -/

/-- FNV-1a; its eight hexadecimal digits are the name of the file. -/
def basemapCacheKey (pmtilesUrl : Text) : BitVec 32 :=
  pmtilesUrl.foldl (fun h c => (h ^^^ BitVec.ofNat 32 c.val) * 0x01000193#32) 0x811c9dc5#32

/-- `/^https:\/\//i` -/
def isHttps (url : Text) : Bool :=
  (url.take 8).map (fun c => if 65 ≤ c.val ∧ c.val ≤ 90 then c.val + 32 else c.val) =
    (ofString "https://").map Fin.val

inductive FileName where
  | archive (key : BitVec 32)
  | part (key : BitVec 32) (attempt : ℕ)
  deriving DecidableEq

/-- How much a file holds of which archive, and the length of that archive. -/
structure Content where
  url : Text
  size : ℕ
  total : ℕ

inductive Stage where
  /-- The HEAD request is under way. -/
  | head
  /-- The transfer is: the length of the archive, and whether the HEAD request told it. -/
  | transfer (total : ℕ) (told : Bool)

structure Call where
  url : Text
  attempt : ℕ
  stage : Stage

/-- The staging file of a call. -/
def Call.part (call : Call) : FileName := .part (basemapCacheKey call.url) call.attempt

structure State where
  files : FileName → Option Content
  inFlight : List Call
  attemptCounter : ℕ
  /-- The URL and the file of a call that the last step answered, unless with `null`. -/
  returned : Option (Text × FileName)

/-- Nothing is in flight; archives may be left from before. -/
def start (archives : BitVec 32 → Option Content) : State :=
  { files
      | .archive key => archives key
      | .part _ _ => none
    inFlight := []
    attemptCounter := 0
    returned := none }

/-! ## Steps -/

inductive Action where
  | ensureBasemapCached (url : Text)
  /-- The HEAD request ends; `tells` when it is answered with the length. -/
  | head (i total : ℕ) (tells : Bool)
  /-- The transfer has written so much. -/
  | receive (i size : ℕ)
  /-- The transfer ends; `completes` when it resolves and the file can be renamed. -/
  | finish (i : ℕ) (completes : Bool)
  /-- The operating system or `clearBasemapCache` removes a file. -/
  | delete (name : FileName)

/-- The call is under way with a staging file of its own. -/
def State.stage (s : State) (url : Text) : State :=
  let call : Call := ⟨url, s.attemptCounter + 1, .head⟩
  { files := update (update s.files (.archive (basemapCacheKey url)) none) call.part none
    inFlight := s.inFlight ++ [call]
    attemptCounter := s.attemptCounter + 1
    returned := none }

/-- `downloadOnce` as far as the HEAD request; a file of no bytes is no copy. -/
def downloadOnce (s : State) (url : Text) : State :=
  match s.files (.archive (basemapCacheKey url)) with
  | some c =>
      if 0 < c.size then { s with returned := some (url, .archive (basemapCacheKey url)) }
      else s.stage url
  | none => s.stage url

/-- The call ends with `null`, and its staging file is deleted. -/
def State.fail (s : State) (i : ℕ) (call : Call) : State :=
  { s with
    files := update s.files call.part none
    inFlight := s.inFlight.eraseIdx i
    returned := none }

/-- The call ends, and its staging file is the archive. -/
def State.publish (s : State) (i : ℕ) (call : Call) (c : Content) : State :=
  let name := .archive (basemapCacheKey call.url)
  { s.fail i call with
    files := update (s.fail i call).files name (some c)
    returned := some (call.url, name) }

/-- Neither empty nor of another length than the HEAD request told. -/
def accepts (told : Bool) (c : Content) : Bool :=
  decide (0 < c.size) && (!told || decide (c.size = c.total))

def step (s : State) : Action → Option State
  | .ensureBasemapCached url =>
      if isHttps url ∧ ∀ call ∈ s.inFlight, call.url ≠ url then some (downloadOnce s url)
      else some { s with returned := none }
  | .head i total tells =>
      match s.inFlight[i]? with
      | some ⟨url, attempt, .head⟩ =>
          some { s with
            inFlight := s.inFlight.set i
              ⟨url, attempt, .transfer total (tells && decide (0 < total))⟩
            returned := none }
      | _ => none
  | .receive i size =>
      match s.inFlight[i]? with
      | some ⟨url, attempt, .transfer total _⟩ =>
          if size ≤ total then
            some { s with
              files := update s.files (.part (basemapCacheKey url) attempt)
                (some ⟨url, size, total⟩)
              returned := none }
          else none
      | _ => none
  | .finish i completes =>
      match s.inFlight[i]? with
      | some ⟨url, attempt, .transfer total told⟩ =>
          let call : Call := ⟨url, attempt, .transfer total told⟩
          match s.files call.part with
          | some c =>
              if completes && accepts told c then some (s.publish i call c)
              else some (s.fail i call)
          | none => some (s.fail i call)
      | _ => none
  | .delete name => some { s with files := update s.files name none, returned := none }

/-! ## What is promised -/

/-- Each transfer has a staging file of its own, and none is left when nothing is in flight. -/
structure Staged (s : State) : Prop where
  apart : (s.inFlight.map Call.part).Nodup
  tidy : s.inFlight = [] → ∀ key attempt, s.files (.part key attempt) = none

/-- The file that a result names has all the bytes of the URL. -/
def Served (s : State) : Prop :=
  ∀ url name, s.returned = some (url, name) →
    ∃ c, s.files name = some c ∧ c.url = url ∧ c.size = c.total

/-- A file that is found is of the URL that is asked for, and an archive whose length the HEAD
request did not tell is complete when it is renamed. -/
def Careful (s : State) : Action → Prop
  | .ensureBasemapCached url =>
      isHttps url = true → (∀ call ∈ s.inFlight, call.url ≠ url) →
        ∀ c, s.files (.archive (basemapCacheKey url)) = some c → 0 < c.size → c.url = url
  | .finish i completes =>
      ∀ url attempt total c, s.inFlight[i]? = some ⟨url, attempt, .transfer total false⟩ →
        s.files (.part (basemapCacheKey url) attempt) = some c →
        completes = true → 0 < c.size → c.size = total
  | _ => True

/-! ## Calls and their files -/

/-- No attempt is made twice, and what is staged is of a transfer of its URL. -/
structure Inv (s : State) : Prop where
  attempts : (s.inFlight.map Call.attempt).Nodup
  counted : ∀ call ∈ s.inFlight, call.attempt ≤ s.attemptCounter
  parts : ∀ key attempt c, s.files (.part key attempt) = some c → ∃ call ∈ s.inFlight,
    call.part = .part key attempt ∧ call.url = c.url ∧ ∃ told, call.stage = .transfer c.total told

variable {s t : State} {x : Call} {i : ℕ} {a : Action} {url : Text} {attempt total : ℕ}
  {told : Bool}

theorem inv_start (archives : BitVec 32 → Option Content) : Inv (start archives) where
  attempts := nodup_nil
  counted _ h := nomatch h
  parts _ _ _ h := nomatch h

theorem Inv.staged (h : Inv s) : Staged s where
  apart := pairwise_map.mpr ((pairwise_map.mp h.attempts).imp
    fun hne hpart => hne (FileName.part.inj hpart).2)
  tidy hnil key attempt := by
    by_contra hsome
    obtain ⟨c, hc⟩ := ne_none_iff_exists'.mp hsome
    obtain ⟨x, hx, -⟩ := h.parts key attempt c hc
    rw [hnil] at hx
    cases hx

theorem Inv.of_parts (h : Inv s) (hflight : t.inFlight = s.inFlight)
    (hcounter : t.attemptCounter = s.attemptCounter)
    (hfiles : ∀ key attempt c, t.files (.part key attempt) = some c →
      s.files (.part key attempt) = some c) : Inv t where
  attempts := hflight ▸ h.attempts
  counted := by rw [hflight, hcounter]; exact h.counted
  parts key attempt c hc := by rw [hflight]; exact h.parts key attempt c (hfiles key attempt c hc)

theorem Inv.stage (h : Inv s) (url : Text) : Inv (s.stage url) where
  attempts := by
    have hnew : s.attemptCounter + 1 ∉ s.inFlight.map Call.attempt := by
      intro hmem
      obtain ⟨x, hx, heq⟩ := mem_map.mp hmem
      have := h.counted x hx
      omega
    simpa [State.stage] using List.Nodup.concat hnew h.attempts
  counted := forall_mem_append_singleton (fun x hx => (h.counted x hx).trans (Nat.le_succ _)) le_rfl
  parts key attempt c hc := by
    have hold : s.files (.part key attempt) = some c := by
      simp only [State.stage, update_apply] at hc
      split at hc
      · cases hc
      · simpa using hc
    obtain ⟨x, hx, hrest⟩ := h.parts key attempt c hold
    exact ⟨x, mem_append_left _ hx, hrest⟩

theorem Inv.fail (h : Inv s) (hx : s.inFlight[i]? = some x) : Inv (s.fail i x) where
  attempts := h.attempts.sublist ((eraseIdx_sublist _ _).map _)
  counted y hy := h.counted y (mem_of_mem_eraseIdx hy)
  parts key attempt c hc := by
    simp only [State.fail, update_apply] at hc
    split at hc
    · cases hc
    · rename_i hne
      obtain ⟨y, hy, hpart, hrest⟩ := h.parts key attempt c hc
      rcases mem_eraseIdx_or hx hy with rfl | hy
      · exact absurd hpart.symm hne
      · exact ⟨y, hy, hpart, hrest⟩

theorem Inv.publish (h : Inv s) (hx : s.inFlight[i]? = some x) (c : Content) :
    Inv (s.publish i x c) :=
  (h.fail hx).of_parts rfl rfl fun key attempt c hc => by simpa [State.publish] using hc

theorem Inv.head (h : Inv s) (hx : s.inFlight[i]? = some ⟨url, attempt, .head⟩) :
    Inv { s with
      inFlight := s.inFlight.set i ⟨url, attempt, .transfer total told⟩
      returned := none } where
  attempts := by
    show ((s.inFlight.set i _).map Call.attempt).Nodup
    rw [map_set_eq (y := ⟨url, attempt, .transfer total told⟩) hx rfl]
    exact h.attempts
  counted := forall_mem_set h.counted (h.counted ⟨url, attempt, .head⟩ (mem_of_getElem? hx))
  parts key n c hc := by
    obtain ⟨y, hy, hpart, hurl, told', hstage⟩ := h.parts key n c hc
    rcases mem_set_or hx hy ⟨url, attempt, .transfer total told⟩ with rfl | hy
    · cases hstage
    · exact ⟨y, hy, hpart, hurl, told', hstage⟩

theorem Inv.receive (h : Inv s) (hx : s.inFlight[i]? = some ⟨url, attempt, .transfer total told⟩)
    (size : ℕ) :
    Inv { s with
      files := update s.files (.part (basemapCacheKey url) attempt) (some ⟨url, size, total⟩)
      returned := none } where
  attempts := h.attempts
  counted := h.counted
  parts key n c hc := by
    simp only [update_apply] at hc
    split at hc
    · rename_i heq
      cases hc
      exact ⟨_, mem_of_getElem? hx, heq.symm, rfl, told, rfl⟩
    · exact h.parts key n c hc

/-! ## Results -/

/-- Nothing is returned, and no archive is new. -/
def Quiet (s : State) (a : Action) (t : State) : Prop :=
  t.returned = none ∧ Careful s a ∧
    ∀ key c, t.files (.archive key) = some c → s.files (.archive key) = some c

/-- An archive is found. -/
def Hit (s : State) (a : Action) (t : State) : Prop :=
  ∃ url c, a = .ensureBasemapCached url ∧ isHttps url = true ∧
    (∀ call ∈ s.inFlight, call.url ≠ url) ∧
    s.files (.archive (basemapCacheKey url)) = some c ∧ 0 < c.size ∧
    t = { s with returned := some (url, .archive (basemapCacheKey url)) }

/-- A transfer becomes an archive. -/
def Publish (s : State) (a : Action) (t : State) : Prop :=
  ∃ i url attempt total told c, a = .finish i true ∧
    s.inFlight[i]? = some ⟨url, attempt, .transfer total told⟩ ∧
    s.files (.part (basemapCacheKey url) attempt) = some c ∧ accepts told c = true ∧
    t = s.publish i ⟨url, attempt, .transfer total told⟩ c

theorem files_fail_archive (s : State) (i : ℕ) (x : Call) (key : BitVec 32) :
    (s.fail i x).files (.archive key) = s.files (.archive key) := by
  simp [State.fail, Call.part]

theorem quiet_stage
    (hempty : ∀ c, s.files (.archive (basemapCacheKey url)) = some c → ¬0 < c.size) :
    Quiet s (.ensureBasemapCached url) (s.stage url) := by
  refine ⟨rfl, fun _ _ c hc hpos => absurd hpos (hempty c hc), fun key c hc => ?_⟩
  simp only [State.stage, Call.part, update_apply, reduceCtorEq, if_false] at hc
  split at hc
  · cases hc
  · exact hc

theorem step_cases (h : Inv s) (hstep : step s a = some t) :
    Inv t ∧ (Quiet s a t ∨ Hit s a t ∨ Publish s a t) := by
  cases a with
  | ensureBasemapCached url =>
    simp only [step] at hstep
    split at hstep
    · rename_i hnew
      cases hstep
      unfold downloadOnce
      split
      · rename_i c hc
        split
        · rename_i hpos
          exact ⟨h.of_parts rfl rfl fun _ _ _ h => h,
            .inr (.inl ⟨url, c, rfl, hnew.1, hnew.2, hc, hpos, rfl⟩)⟩
        · rename_i hzero
          exact ⟨h.stage url, .inl (quiet_stage fun d hd => by
            cases hc.symm.trans hd
            exact hzero)⟩
      · rename_i hnone
        exact ⟨h.stage url, .inl (quiet_stage fun d hd => nomatch hnone.symm.trans hd)⟩
    · rename_i hold
      cases hstep
      exact ⟨h.of_parts rfl rfl fun _ _ _ h => h,
        .inl ⟨rfl, fun hhttps hfree => absurd ⟨hhttps, hfree⟩ hold, fun _ _ h => h⟩⟩
  | head i total tells =>
    simp only [step] at hstep
    split at hstep
    · rename_i hx
      cases hstep
      exact ⟨h.head hx, .inl ⟨rfl, trivial, fun _ _ h => h⟩⟩
    · cases hstep
  | receive i size =>
    simp only [step] at hstep
    split at hstep
    · rename_i hx
      split at hstep
      · cases hstep
        exact ⟨h.receive hx size, .inl ⟨rfl, trivial, fun key c hc => by simpa using hc⟩⟩
      · cases hstep
    · cases hstep
  | finish i completes =>
    simp only [step] at hstep
    split at hstep
    · rename_i url attempt total told hx
      have hfail (hcare : Careful s (.finish i completes)) :
          Quiet s (.finish i completes) (s.fail i ⟨url, attempt, .transfer total told⟩) :=
        ⟨rfl, hcare, fun key c hc => by rwa [files_fail_archive] at hc⟩
      split at hstep
      · rename_i c hc
        split at hstep
        · rename_i hok
          cases hstep
          obtain ⟨rfl, hok⟩ := Bool.and_eq_true_iff.mp hok
          exact ⟨h.publish hx c, .inr (.inr ⟨i, url, attempt, total, told, c, rfl, hx, hc, hok, rfl⟩)⟩
        · rename_i hno
          cases hstep
          refine ⟨h.fail hx, .inl (hfail fun _ _ _ d hx' hd hdone hpos => ?_)⟩
          cases hx.symm.trans hx'
          cases hc.symm.trans hd
          simp [accepts, hdone, hpos] at hno
      · rename_i hnone
        cases hstep
        refine ⟨h.fail hx, .inl (hfail fun _ _ _ d hx' hd _ _ => ?_)⟩
        cases hx.symm.trans hx'
        cases hnone.symm.trans hd
    · cases hstep
  | delete name =>
    cases hstep
    have hkept (other : FileName) (c : Content)
        (hc : update s.files name none other = some c) : s.files other = some c := by
      grind [update_apply]
    exact ⟨h.of_parts rfl rfl fun _ _ c hc => hkept _ c hc,
      .inl ⟨rfl, trivial, fun _ c hc => hkept _ c hc⟩⟩

/-- Every archive has all its bytes. -/
def Complete (s : State) : Prop := ∀ key c, s.files (.archive key) = some c → c.size = c.total

theorem served_step (h : Inv s) (hall : Complete s) (hstep : step s a = some t) :
    Served t ↔ Careful s a := by
  obtain ⟨-, hquiet | ⟨url, c, rfl, hhttps, hfree, hc, hpos, rfl⟩ |
    ⟨i, url, attempt, total, told, c, rfl, hx, hc, hok, rfl⟩⟩ := step_cases h hstep
  · exact iff_of_true (fun url name hret => nomatch hquiet.1.symm.trans hret) hquiet.2.1
  · constructor
    · intro hserved _ _ d hd _
      obtain ⟨e, he, hurl, -⟩ := hserved url _ rfl
      cases hd.symm.trans he
      exact hurl
    · intro hcare url' name hret
      cases hret
      exact ⟨c, hc, hcare hhttps hfree c hc hpos, hall _ c hc⟩
  · have hmem := mem_of_getElem? hx
    obtain ⟨y, hy, hpart, hurl, told', hstage⟩ := h.parts _ _ _ hc
    obtain rfl := inj_on_of_nodup_map h.staged.apart hy hmem hpart
    cases hstage
    obtain ⟨hpos, hlength⟩ := Bool.and_eq_true_iff.mp hok
    have hserved : Served (s.publish i ⟨url, attempt, .transfer c.total told⟩ c) ↔
        c.size = c.total := by
      constructor
      · intro h
        obtain ⟨d, hd, -, htotal⟩ := h url _ rfl
        simp only [State.publish, update_self] at hd
        cases hd
        exact htotal
      · intro heq url' name hret
        cases hret
        exact ⟨c, by simp [State.publish], hurl.symm, heq⟩
    rw [hserved]
    cases told with
    | false =>
      constructor
      · intro heq _ _ _ d hx' hd _ _
        cases hx.symm.trans hx'
        cases hc.symm.trans hd
        exact heq
      · intro hcare
        exact hcare url attempt c.total c hx hc rfl (of_decide_eq_true hpos)
    | true =>
      exact iff_of_true (of_decide_eq_true hlength) fun _ _ _ _ hx' => nomatch hx.symm.trans hx'

theorem Complete.step (h : Inv s) (hall : Complete s) (hcare : Careful s a)
    (hstep : step s a = some t) : Complete t := by
  have hserved := (served_step h hall hstep).mpr hcare
  obtain ⟨-, hquiet | ⟨url, c, rfl, hhttps, hfree, hc, hpos, rfl⟩ |
    ⟨i, url, attempt, total, told, c, rfl, hx, hc, hok, rfl⟩⟩ := step_cases h hstep
  · exact fun key d hd => hall key d (hquiet.2.2 key d hd)
  · exact hall
  · intro key d hd
    by_cases hkey : key = basemapCacheKey url
    · subst hkey
      obtain ⟨e, he, -, htotal⟩ := hserved url _ rfl
      cases hd.symm.trans he
      exact htotal
    · simp only [State.publish, update_apply, FileName.archive.injEq, hkey, if_false,
        files_fail_archive] at hd
      exact hall key d hd

/-- Another URL with the same hash is asked for. -/
def collidingRun : List Action :=
  [.ensureBasemapCached (ofString "https://cdn.io/zbdzyn.pmtiles"), .head 0 4 true, .receive 0 4,
    .finish 0 true, .ensureBasemapCached (ofString "https://cdn.io/ccnsao.pmtiles")]

theorem not_served_colliding : ¬Always step Served (start fun _ => none) collidingRun := by
  intro h
  obtain ⟨c, hc, hurl, -⟩ := h.last rfl _ _ rfl
  cases hc
  revert hurl
  decide

end FestivalPlanner.BasemapCache
