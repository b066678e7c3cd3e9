import SmartHome.Concurrent.System
import SmartHome.Found.Justified

/-!
# The face gate under concurrency

Three places of `receive_thread_handler` drive a pin: behind an accepted face, without a face check,
and at the delayed relock. All threads share the frame and `gpio_status`, but what decides whether a
place is reached is private to the handler, or never changes: its pointer `pcur_gdevice`, its own
`face_result`, and `check_face_status`.

`Backed` ties these together, one handler at a time, with the actions recorded so far: a record
pointed to was looked up by this handler; a passed score was obtained by it for that record
(`Cleared`); behind the gate the score has passed; outside it the record asks for no face. Steps of
other threads only lengthen the record, so they preserve it (`Backed.mono`), and the handler's own
step does too (`backed_step`). `faceFirst_after` concludes: no interleaving drives the pin of a device
behind the gate without that handler's own passed check.
-/

set_option autoImplicit false

namespace SmartHome.Concurrent

open SmartHome.Device SmartHome.Controls SmartHome.Found SmartHome.Handler SmartHome.Queue
open scoped List

/-- Handler `tid` has resolved record `d` and then obtained a passing score of its own.
Source: none: the purpose of the face check. Kind: D -/
def Cleared (events : List (ℕ × Event)) (tid d : ℕ) : Prop :=
  ∃ score, 1 / 2 < score ∧
    [(tid, Event.findGdeviceByKey (some d)), (tid, Event.faceScore score)] <+ events

/-- An action is allowed after `earlier`: a wiringPi call for a record that asks for a face needs the
handler to be cleared for that record.
Source: none: the purpose of the face check. Kind: D -/
def FaceFirst (pdevhead : List Gdevice) (earlier : List (ℕ × Event)) (e : ℕ × Event) : Prop :=
  ∀ d call pdev, e.2 = .gpio d call → pdevhead[d]? = some pdev → pdev.checkFaceStatus = 1 →
    Cleared earlier e.1 d

variable {pdevhead : List Gdevice} {controlPhead : List Control} {tid : ℕ} {h : HandlerThread}
  {events : List (ℕ × Event)}

theorem Cleared.mono {events' : List (ℕ × Event)} {d : ℕ} (hc : Cleared events tid d)
    (hsub : events <+ events') : Cleared events' tid d := by
  obtain ⟨score, hscore, hin⟩ := hc
  exact ⟨score, hscore, hin.trans hsub⟩

/-! ## What a handler knows at each point -/

/-- What holds at the handler's point of the body: no score yet, no face asked for, or a passed score.
Source: `receive_interface.c` `receive_thread_handler`
Kind: D -/
def AtPoint (pdevhead : List Gdevice) (h : HandlerThread) : Prop :=
  match h.pc with
  | .idTest | .lookup => accepted h.faceResult = false
  | .pinMode .ungated | .digitalWrite .ungated =>
      ∀ d pdev, h.pcurGdevice = some d → pdevhead[d]? = some pdev → pdev.checkFaceStatus ≠ 1
  | .pinMode _ | .digitalWrite _ | .relockStore => accepted h.faceResult = true
  | _ => True

/-- The invariant of handler `tid`, on the actions so far.
Source: `receive_interface.c` `receive_thread_handler`
Kind: D -/
structure Backed (pdevhead : List Gdevice) (events : List (ℕ × Event)) (tid : ℕ)
    (h : HandlerThread) : Prop where
  resolved : ∀ d, h.pcurGdevice = some d → (tid, Event.findGdeviceByKey (some d)) ∈ events
  scored : accepted h.faceResult = true → ∀ d, h.pcurGdevice = some d → Cleared events tid d
  atPoint : AtPoint pdevhead h

theorem backed_init (pdevhead : List Gdevice) (events : List (ℕ × Event)) (tid : ℕ) :
    Backed pdevhead events tid HandlerThread.init := by
  have hzero : accepted 0 = false := by decide +kernel
  exact ⟨by simp [HandlerThread.init], by simp [HandlerThread.init, hzero], hzero⟩

theorem Backed.mono (hb : Backed pdevhead events tid h) {events' : List (ℕ × Event)}
    (hsub : events <+ events') : Backed pdevhead events' tid h :=
  ⟨fun d hd => hsub.subset (hb.resolved d hd), fun ha d hd => (hb.scored ha d hd).mono hsub,
    hb.atPoint⟩

/-- A step that keeps the pointer and the score owes only what its new point asks for. -/
theorem Backed.move (hb : Backed pdevhead events tid h) {events' : List (ℕ × Event)}
    {h' : HandlerThread} (hsub : events <+ events') (hd : h'.pcurGdevice = h.pcurGdevice)
    (hf : h'.faceResult = h.faceResult) (hpoint : AtPoint pdevhead h') :
    Backed pdevhead events' tid h' := by
  refine ⟨?_, ?_, hpoint⟩
  · rw [hd]
    exact (hb.mono hsub).resolved
  · rw [hd, hf]
    exact (hb.mono hsub).scored

variable {m : Memory}

/-- The table now in memory agrees with the initial one on who asks for a face. -/
theorem checkFaceStatus_eq (hconf : m.pdevhead.map Gdevice.config = pdevhead.map Gdevice.config)
    {d : ℕ} {pdev pdev' : Gdevice} (hg : m.pdevhead[d]? = some pdev)
    (hg' : pdevhead[d]? = some pdev') : pdev.checkFaceStatus = pdev'.checkFaceStatus :=
  (congrArg Gdevice.checkFaceStatus (config_eq_of_map_config hconf hg hg') :)

/-- A step through `pcur_gdevice` that keeps the pointer and the score. -/
theorem Backed.through (hb : Backed pdevhead m.events tid h)
    {k : ℕ → Gdevice → Memory × HandlerThread}
    (hk : ∀ d pdev, h.pcurGdevice = some d → m.pdevhead[d]? = some pdev →
      Backed pdevhead (k d pdev).1.events tid (k d pdev).2) :
    Backed pdevhead (h.through m k).1.events tid (h.through m k).2 :=
  HandlerThread.through_induction (P := fun x => Backed pdevhead x.1.events tid x.2) hb hk

/-- **A handler's own step keeps its invariant**: one case for each point of the body.
Source: `receive_interface.c` `receive_thread_handler`
Kind: L -/
theorem backed_step (hconf : m.pdevhead.map Gdevice.config = pdevhead.map Gdevice.config)
    (hb : Backed pdevhead m.events tid h) (score : ℚ) :
    Backed pdevhead (h.step controlPhead score tid m).1.events tid
      (h.step controlPhead score tid m).2 := by
  have hpoint := hb.atPoint
  have hgrow : ∀ es : List Event, m.events <+ (m.emit tid es).events := fun es =>
    List.sublist_append_left ..
  unfold HandlerThread.step
  cases hpc : h.pc with
  | idTest =>
      simp only [AtPoint, hpc] at hpoint
      refine hb.move (List.Sublist.refl _) rfl rfl ?_
      by_cases h40 : byteAt m.buffer 2 = 0x40 <;> simp [AtPoint, h40, hpoint]
  | lookup =>
      simp only [AtPoint, hpc] at hpoint
      refine ⟨fun d hd => ?_, fun ha => ?_, ?_⟩
      · simp only at hd
        simp [Memory.emit, hd]
      · simp [hpoint] at ha
      · cases findGdeviceByKey m.pdevhead (byteAt m.buffer 2).asInt <;> simp [AtPoint]
  | level => exact hb.move (List.Sublist.refl _) rfl rfl trivial
  | store status => exact hb.through fun d _ _ _ => hb.move (List.Sublist.refl _) rfl rfl trivial
  | gate =>
      apply hb.through
      intro d pdev hd hg
      refine hb.move (List.Sublist.refl _) rfl rfl ?_
      by_cases hcheck : pdev.checkFaceStatus = 1
      · simp [AtPoint, hcheck]
      · simp only [AtPoint, hcheck, if_false]
        intro d' pdev' hd' hg'
        rw [hd] at hd'
        cases hd'
        rw [← checkFaceStatus_eq hconf hg hg']
        exact hcheck
  | face =>
      refine ⟨fun d hd => ?_, fun ha d hd => ?_, ?_⟩
      · exact (hb.mono (hgrow _)).resolved d hd
      · -- the score just obtained comes after the lookup of the record
        refine ⟨score, accepted_iff.mp ha, ?_⟩
        exact List.Sublist.append (List.singleton_sublist.mpr (hb.resolved d hd))
          (List.Sublist.refl _)
      · cases haccept : accepted score <;> simp [AtPoint, haccept]
  | pinMode site =>
      apply hb.through
      intro d pdev _ _
      refine hb.move (hgrow _) rfl rfl ?_
      cases site <;> simpa only [AtPoint, hpc] using hpoint
  | digitalWrite site =>
      apply hb.through
      intro d pdev _ _
      cases site <;> exact hb.move (hgrow _) rfl rfl trivial
  | reply => exact hb.move (List.Sublist.refl _) rfl rfl trivial
  | voiceTest =>
      apply hb.through
      intro d pdev _ _
      split_ifs
      · cases voiceSearch controlPhead with
        | none => exact hb.move (List.Sublist.refl _) rfl rfl trivial
        | some pcontrol => exact hb.move (List.Sublist.refl _) rfl rfl trivial
      · exact hb.move (List.Sublist.refl _) rfl rfl trivial
  | fireCode pcontrol =>
      refine hb.move (List.Sublist.refl _) rfl rfl ?_
      by_cases hcode : byteAt m.buffer 2 = 0x45 <;> simp [AtPoint, hcode]
  | fireStatus pcontrol => exact hb.move (List.Sublist.refl _) rfl rfl trivial
  | startSet pcontrol =>
      simp only
      split_ifs
      · exact hb.move (hgrow _) rfl rfl trivial
      · exact hb
  | oled => exact hb.through fun d pdev _ _ => hb.move (hgrow _) rfl rfl trivial
  | relockTest =>
      apply hb.through
      intro d pdev _ _
      refine hb.move (List.Sublist.refl _) rfl rfl ?_
      by_cases hrelock : relocks pdev h.ret h.faceResult = true
      · have haccept : accepted h.faceResult = true := by
          simp only [relocks, Bool.and_eq_true] at hrelock
          exact hrelock.2
        simp [AtPoint, hrelock, haccept]
      · simp [AtPoint, hrelock]
  | relockStore =>
      simp only [AtPoint, hpc] at hpoint
      exact hb.through fun d _ _ _ => hb.move (List.Sublist.refl _) rfl rfl hpoint
  | exited => exact hb

/-! ## The whole hub -/

/-- The invariant of the hub.
Source: `receive_interface.c` `receive_get`, `receive_thread_handler`
Kind: D -/
structure Gated (pdevhead : List Gdevice) (s : System) : Prop where
  config : s.mem.pdevhead.map Gdevice.config = pdevhead.map Gdevice.config
  backed : Each (Backed pdevhead s.mem.events) s.handlers
  justified : Justified (FaceFirst pdevhead) s.mem.events

theorem gated_init (pdevhead : List Gdevice) : Gated pdevhead (System.init pdevhead) :=
  ⟨rfl, Each.nil, Justified.nil⟩

theorem FaceFirst.mono (l m : List (ℕ × Event)) (e : ℕ × Event)
    (hl : FaceFirst pdevhead l e) : FaceFirst pdevhead (l ++ m) e :=
  fun d call pdev he hg hcheck => (hl d call pdev he hg hcheck).mono (List.sublist_append_left ..)

/-- Inside `set_gpio_gdevice_status` the gate has been passed. -/
theorem Backed.cleared_of_driving (hb : Backed pdevhead events tid h) {d : ℕ} {pdev : Gdevice}
    (hdriving : h.Driving d) (hg : pdevhead[d]? = some pdev) (hcheck : pdev.checkFaceStatus = 1) :
    Cleared events tid d := by
  obtain ⟨hd, site, hpc⟩ := hdriving
  have hpoint := hb.atPoint
  cases site with
  | ungated =>
      have hno : pdev.checkFaceStatus ≠ 1 := by
        rcases hpc with hpc | hpc <;> simp only [AtPoint, hpc] at hpoint <;> exact hpoint d pdev hd hg
      exact absurd hcheck hno
  | accepted =>
      have hpass : accepted h.faceResult = true := by
        rcases hpc with hpc | hpc <;> simpa only [AtPoint, hpc] using hpoint
      exact hb.scored hpass d hd
  | relock =>
      have hpass : accepted h.faceResult = true := by
        rcases hpc with hpc | hpc <;> simpa only [AtPoint, hpc] using hpoint
      exact hb.scored hpass d hd

/-- A step of a handler: its own invariant, the tolerance of the others, and the new calls. -/
theorem gated_handler {s : System} (hs : Gated pdevhead s) {score : ℚ}
    (hh : s.handlers[tid]? = some h) :
    Gated pdevhead { s with
      mem := (h.step controlPhead score tid s.mem).1
      handlers := s.handlers.set tid (h.step controlPhead score tid s.mem).2 } := by
  have heffect := h.step_effect controlPhead score tid s.mem
  obtain ⟨es, hevents, hdriving⟩ := heffect.events
  have hb := hs.backed tid h hh
  refine ⟨heffect.config.trans hs.config, ?_, ?_⟩
  · refine hs.backed.set (backed_step hs.config hb score) fun j t _ _ hj => hj.mono ?_
    rw [hevents]
    exact List.sublist_append_left ..
  · rw [hevents]
    apply hs.justified.append FaceFirst.mono
    intro e he d call pdev hcall hg hcheck
    obtain ⟨ev, hev, rfl⟩ := List.mem_map.mp he
    cases hcall
    exact hb.cleared_of_driving (hdriving d call hev) hg hcheck

theorem gated_step (s : System) (a : Act) (hs : Gated pdevhead s) :
    Gated pdevhead (s.step controlPhead a) := by
  apply System.step_induction a hs
  · exact fun _ _ _ => ⟨hs.config, hs.backed, hs.justified⟩
  · exact fun _ _ => ⟨hs.config, hs.backed, hs.justified⟩
  · intro _
    refine ⟨hs.config, ?_, hs.justified⟩
    exact hs.backed.concat (backed_init pdevhead _ _) fun _ _ _ hj => hj
  · exact fun tid score h _ hh => gated_handler hs hh
  · exact ⟨hs.config, hs.backed, hs.justified⟩

/-- **The face gate holds under concurrency**: on every device table and in every interleaving of
`receive_get`, its handlers and the announcements, a wiringPi call for a record that asks for a face is
preceded by the calling handler's own lookup of that record and then its own score above `0.5`.
Source: `receive_interface.c` `receive_thread_handler`
Kind: P -/
theorem faceFirst_after (controlPhead : List Control) (pdevhead : List Gdevice) (acts : List Act) :
    Justified (FaceFirst pdevhead) (System.after controlPhead pdevhead acts).mem.events :=
  (run_invariant gated_step (gated_init pdevhead) acts).justified

end SmartHome.Concurrent
