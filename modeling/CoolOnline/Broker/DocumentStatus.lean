import CoolOnline.Broker.Activities

/-! # Activities and status of a document

A broker from its first download on, with the status of the document, which the loaded document
knows only as marked to be destroyed or not, and all the calls that have been made for the
activities.
-/

namespace CoolOnline.Broker

/-- `DocumentState::Status`. -/
inductive Status
  | none
  | downloading
  | loading
  | live
  | destroying
  | destroyed
deriving DecidableEq, Repr

def Status.rank : Status → Nat
  | none => 0
  | downloading => 1
  | loading => 2
  | live => 3
  | destroying => 4
  | destroyed => 5

namespace DocumentBroker

variable (s : DocumentBroker)

/-- The activity an upload comes back to, if any, is one that it belongs to. -/
def findsOwnUpload : Bool := s.activity == .none || Operation.upload.serves s.activity

/-- The outcome of an upload comes while no other activity is executing; and no upload is put in
flight while the timestamp is being synchronized. -/
def comesInTurn : Event → Bool
  | .uploadReply reply _ =>
      s.uploadRequest.all fun request =>
        (reply.result != .failed || s.findsOwnUpload) &&
          (reply.result != .ok || request.isPlain || !request.isRename ||
            (s.activity == .none || s.activity == .rename))
  | .uploadConnectFails again => !again || s.uploadRequest.isNone || s.findsOwnUpload
  | .saveResponse id session =>
      s.activity != .syncFileTimestamp ||
        match findSession s.sessions session, s.answerOf id with
        | some x, some (answer, wasModified, file) =>
            !(s.saveAnswered id answer wasModified file).checkAndUploadRuns x answer.isOk
        | _, _ => true
  | .saveToStorage session force =>
      s.activity != .syncFileTimestamp ||
        (findSession s.sessions session).all fun x => !s.uploadToStorageRuns x force
  | .saveAs session target _ =>
      s.activity != .syncFileTimestamp ||
        (findSession s.sessions session).all fun x =>
          !(x.isEditable && s.uploadRuns (some target))
  | _ => true

/-- No upload is in flight while the timestamp is being synchronized, and `CheckFileInfo` is in
progress only then. -/
structure ActivityInv : Prop where
  syncing : s.activity = .syncFileTimestamp → s.isAsyncUploading = false
  asking : ∀ session, s.checkFileInfo = some ⟨session, false⟩ → s.activity = .syncFileTimestamp

end DocumentBroker

/-- What an event does to the activity. -/
structure Handled (s : DocumentBroker) (calls : List ActivityCall) (s' : DocumentBroker) :
    Prop where
  follows : Follows s.activity calls s'.activity
  inTurn : ∀ call ∈ calls, call.inTurn = true
  inv : s'.ActivityInv
  loaded : s'.docState.loaded = s.docState.loaded
  marked : s.docState.markedToDestroy = true → s'.docState.markedToDestroy = true

open DocumentBroker

variable {s s' : DocumentBroker} {calls : List ActivityCall} {uploads : Bool}

theorem Follows.exists_sync {activity : Activity} (h : Follows activity calls .syncFileTimestamp)
    (hne : activity ≠ .syncFileTimestamp) : ∃ found, .start .syncFileTimestamp found ∈ calls := by
  induction calls generalizing activity with
  | nil => exact absurd h hne
  | cons call calls ih =>
      obtain ⟨-, hrest⟩ := h
      by_cases hnext : call.next activity = .syncFileTimestamp
      · cases call with
        | start started found =>
            simp only [ActivityCall.next] at hnext
            split at hnext
            · exact ⟨found, by rw [hnext]; exact List.mem_cons_self⟩
            · exact absurd hnext hne
        | ended operation found => cases hnext
      · obtain ⟨found, hmem⟩ := ih hrest hnext
        exact ⟨found, List.mem_cons_of_mem _ hmem⟩

theorem Acts.activity_of_sync (h : Acts s calls uploads s')
    (hs : s.activity = .syncFileTimestamp) : s'.activity = .syncFileTimestamp := by
  have hfollows := h.follows
  rw [h.kept hs] at hfollows
  exact hfollows.symm.trans hs

theorem Acts.inv (h : Acts s calls uploads s') (hi : s.ActivityInv)
    (hsync : s.activity = .syncFileTimestamp → uploads = false) : s'.ActivityInv where
  syncing hs' := by
    by_cases hs : s.activity = .syncFileTimestamp
    · cases hup : s'.isAsyncUploading with
      | false => rfl
      | true =>
          rcases h.uploading hup with huploading | huploads
          · rw [hi.syncing hs] at huploading
            cases huploading
          · rw [hsync hs] at huploads
            cases huploads
    · have hfollows := h.follows
      rw [hs'] at hfollows
      obtain ⟨found, hmem⟩ := hfollows.exists_sync hs
      exact h.syncs found hmem
  asking session hinfo := by
    rw [h.checkFileInfo] at hinfo
    exact h.activity_of_sync (hi.asking session hinfo)

theorem Handled.of_acts (h : Acts s calls uploads s') (hi : s.ActivityInv)
    (hsync : s.activity = .syncFileTimestamp → uploads = false) : Handled s calls s' :=
  ⟨h.follows, h.inTurn, h.inv hi hsync, h.loaded, h.marked⟩

/-- What leaves these parts alone, and puts nothing in flight. -/
theorem Handled.of_quiet (h : Acts s calls false s') (hi : s.ActivityInv) : Handled s calls s' :=
  .of_acts h hi fun _ => rfl

namespace DocumentBroker

/-! ## The events that belong to a `CheckFileInfo` -/

/-- The continuation of `CheckFileInfo` ends the activity it finds. -/
theorem continuation_handled {session : Nat} {info : CheckFileInfo} (hi : s.ActivityInv)
    (hinfo : s.checkFileInfo = some ⟨session, false⟩) (hcompleted : info.completed = true)
    (h : Acts ({ s with checkFileInfo := some info } : DocumentBroker).endActivity [] false s') :
    Handled s (s.endCall .fileInfo) s' where
  follows := ⟨rfl, h.follows⟩
  inTurn call hcall := by
    rw [endCall, List.mem_singleton] at hcall
    rw [hcall, hi.asking session hinfo]
    rfl
  inv := by
    refine h.inv ⟨?_, ?_⟩ fun _ => rfl
    · intro hsync
      cases hsync
    · intro session' hsome
      have hinfo' : info = ⟨session', false⟩ := Option.some.inj hsome
      rw [hinfo'] at hcompleted
      cases hcompleted
  loaded := h.loaded
  marked := h.marked

theorem fileInfoPassed_acts (time : String) (size : Nat) :
    Acts s.endActivity [] uploads (s.fileInfoPassed time size) := by
  unfold fileInfoPassed
  dsimp only
  have hreported : Acts s.endActivity [] uploads
      (s.endActivity.storing fun t => t.fileInfoReported time size) := .storing _ rfl
  exact hreported.after (acts_ite handleDocumentConflict_acts (.refl _))

theorem fileInfoFailed_acts (session : Nat) (unauthorized : Bool) :
    Acts s.endActivity [] uploads (s.fileInfoFailed session unauthorized) := by
  unfold fileInfoFailed
  dsimp only
  have hunsafe : Acts s.endActivity [] uploads
      (s.endActivity.storing Storing.setLastModifiedTimeUnSafe) := .storing _ rfl
  apply hunsafe.after
  apply acts_ite
  · exact .of_same rfl rfl rfl rfl id
  · exact .refl _

theorem completeFileInfo_handled {f : DocumentBroker → Nat → DocumentBroker} (hi : s.ActivityInv)
    (hf : ∀ t session, Acts t.endActivity [] false (f t session))
    (h : s.completeFileInfo f = some s') : Handled s (s.endCall .fileInfo) s' := by
  unfold completeFileInfo at h
  split at h
  · rename_i session hinfo
    cases h
    exact continuation_handled hi hinfo rfl (hf _ session)
  · cases h

theorem syncFileTimestamp_handled (starts : Bool) (hs : s.activity = .syncFileTimestamp)
    (hi : s.ActivityInv) : Handled s s.syncFileTimestampCalls (s.syncFileTimestamp starts) := by
  unfold syncFileTimestamp syncFileTimestampCalls
  split
  · exact .of_quiet (.refl s) hi
  · rename_i hnone
    cases getFirstAuthorizedSession s.sessions with
    | none =>
        refine ⟨⟨rfl, rfl⟩, ?_, ⟨?_, ?_⟩, rfl, id⟩
        · intro call hcall
          rw [endCall, List.mem_singleton] at hcall
          rw [hcall, hs]
          rfl
        · intro hsync
          cases hsync
        · intro session hsome
          have hsome' : s.checkFileInfo = some ⟨session, false⟩ := hsome
          simp [hsome'] at hnone
    | some session =>
        dsimp only
        split
        · exact ⟨rfl, List.forall_mem_nil _, ⟨hi.syncing, fun _ _ => hs⟩, rfl, id⟩
        · exact .of_quiet (.refl s) hi

theorem giveUpSave_handled (hi : s.ActivityInv) (hs : Operation.save.serves s.activity = true) :
    Handled s
      (if s.docState.isKitDisconnected || s.saveManager.hasSavingTimedOut s.now then
        s.endCall .save else [])
      (if s.docState.isKitDisconnected || s.saveManager.hasSavingTimedOut s.now then
        (s.storing Storing.giveUpSave).endActivity else s) := by
  have hne : s.activity ≠ .syncFileTimestamp := by
    intro hsync
    rw [hsync] at hs
    cases hs
  have hgiven : Acts s [] false (s.storing Storing.giveUpSave) := .storing _ rfl
  have hended : Acts (s.storing Storing.giveUpSave) (s.endCall .save) false
      (s.storing Storing.giveUpSave).endActivity :=
    .ended (s := s.storing Storing.giveUpSave) (.inr hs) (by decide) hne
  apply Handled.of_quiet _ hi
  apply Acts.ite
  · intro _
    exact hgiven.after hended
  · intro _
    exact .refl s

theorem pollIdle_handled (hi : s.ActivityInv) (hs : s.activity = .none) :
    Handled s s.pollIdleCalls s.pollIdle := by
  have hidle := pollIdle_acts (s := s)
  generalize hr : ({ s with checkFileInfo := none } : DocumentBroker) = r at hidle
  have hactivity : r.activity = s.activity := by rw [← hr]; rfl
  have hreset : r.ActivityInv := by
    rw [← hr]
    exact ⟨hi.syncing, nofun⟩
  have hne : r.activity ≠ .syncFileTimestamp := by simp [hactivity, hs]
  have hidle' := Handled.of_acts hidle hreset fun h => absurd h hne
  have hfollows := hidle'.follows
  rw [hactivity] at hfollows
  exact ⟨hfollows, hidle'.inTurn, hidle'.inv, by rw [hidle'.loaded, ← hr],
    fun hm => hidle'.marked (by rw [← hr]; exact hm)⟩

theorem postponeAutosave_acts (seconds : Nat) :
    Acts s [] uploads (s.storing fun t => t.postponeAutosave seconds) := by
  apply Acts.storing
  unfold Storing.postponeAutosave
  with_reducible rfl

theorem pollOnce_handled (starts : Bool) (hi : s.ActivityInv) :
    Handled s s.pollOnceCalls (s.pollOnce starts) := by
  unfold pollOnce pollOnceCalls
  by_cases hinteractive : s.docState.interactive = true
  · rw [if_pos hinteractive, if_pos hinteractive]
    exact .of_quiet (acts_ite (stop_acts _) (.refl s)) hi
  rw [if_neg hinteractive, if_neg hinteractive]
  have hs : s.docState.activity = s.activity := rfl
  rw [hs]
  cases hactivity : s.activity with
  | none => exact pollIdle_handled hi hactivity
  | save => exact giveUpSave_handled hi (by rw [hactivity]; decide)
  | saveAs => exact giveUpSave_handled hi (by rw [hactivity]; decide)
  | syncFileTimestamp => exact syncFileTimestamp_handled starts hactivity hi
  | rename | conflict | upload | switchingToOffline | switchingToOnline =>
      dsimp only
      exact .of_quiet (postponeAutosave_acts 30) hi

/-! ## The other events -/

theorem saveResponse_handled {id session : Nat} (hi : s.ActivityInv)
    (hc : s.comesInTurn (.saveResponse id session) = true)
    (h : s.withSession session (s.saveResponse id) = some s') :
    Handled s (s.callsOf (.saveResponse id session)) s' := by
  obtain ⟨x, hx, h⟩ := Option.bind_eq_some_iff.mp h
  simp only [comesInTurn, callsOf, hx] at hc ⊢
  rw [saveResponse] at h
  split at h
  · rename_i answer wasModified file hfind
    have hanswer : s.answerOf id = some (answer, wasModified, file) := by
      rw [answerOf, hfind]
      rfl
    cases h
    rw [hanswer] at hc ⊢
    apply Handled.of_acts (handleSaveResponse_acts x id answer wasModified file) hi
    intro hsync
    simpa [hsync] using hc
  · cases h

theorem saveToStorage_handled {session : Nat} {force : Bool} (hi : s.ActivityInv)
    (hc : s.comesInTurn (.saveToStorage session force) = true)
    (h : s.withSession session (fun x => some (s.uploadToStorage x force)) = some s') :
    Handled s (s.callsOf (.saveToStorage session force)) s' := by
  obtain ⟨x, hx, h⟩ := Option.bind_eq_some_iff.mp h
  simp only [comesInTurn, callsOf, hx] at hc ⊢
  cases h
  apply Handled.of_acts (uploadToStorage_acts x force) hi
  intro hsync
  simpa [hsync] using hc

theorem saveAs_handled {session : Nat} {target : SaveAsTarget} {isExport : Bool}
    (hi : s.ActivityInv) (hc : s.comesInTurn (.saveAs session target isExport) = true)
    (h : s.withSession session (fun x =>
      some (s.uploadToStorageInternal x (some target) false isExport false)) = some s') :
    Handled s (s.callsOf (.saveAs session target isExport)) s' := by
  obtain ⟨x, hx, h⟩ := Option.bind_eq_some_iff.mp h
  simp only [comesInTurn, callsOf, hx] at hc ⊢
  cases h
  apply Handled.of_acts (uploadToStorageInternal_acts x (some target) false isExport false) hi
  intro hsync
  rw [hsync] at hc
  exact (Bool.not_eq_true' _).mp hc

/-- The timestamp is not being synchronized while an upload is in flight. -/
theorem ActivityInv.activity_ne (hi : s.ActivityInv) (h : s.isAsyncUploading = true) :
    s.activity ≠ .syncFileTimestamp := by
  intro hsync
  rw [hi.syncing hsync] at h
  cases h

theorem findsOwn_of_comesInTurn {reply : UploadReply} {again : Bool}
    (hc : s.comesInTurn (.uploadReply reply again) = true) : s.FindsOwn reply.result := by
  intro request hrequest
  simp only [comesInTurn, hrequest, Option.all_some, Bool.and_eq_true, Bool.or_eq_true, bne_iff_ne,
    ne_eq, beq_iff_eq, findsOwnUpload, Bool.not_eq_true'] at hc
  obtain ⟨hfailed, hrename⟩ := hc
  constructor
  · intro hresult
    exact hfailed.resolve_left (absurd hresult)
  · intro hresult hplain hisRename
    rcases hrename with ((hne | hplain') | hrename') | hown
    · exact absurd hresult hne
    · rw [hplain] at hplain'
      cases hplain'
    · rw [hisRename] at hrename'
      cases hrename'
    · exact hown

theorem uploadReply_handled {reply : UploadReply} {again : Bool} (hi : s.ActivityInv)
    (hc : s.comesInTurn (.uploadReply reply again) = true)
    (h : s.storage.uploadHttpSession.map (fun upload => s.uploadFinishes upload reply again) =
      some s') : Handled s (s.callsOf (.uploadReply reply again)) s' := by
  simp only [callsOf]
  cases hupload : s.storage.uploadHttpSession with
  | none =>
      rw [hupload] at h
      cases h
  | some upload =>
      rw [hupload] at h
      cases h
      have hne := hi.activity_ne (show s.isAsyncUploading = true by
        rw [Storing.isAsyncUploading, hupload]
        rfl)
      apply Handled.of_acts
        (uploadFinishes_acts upload reply again hne (findsOwn_of_comesInTurn hc)) hi
      exact fun hsync => absurd hsync hne

theorem uploadConnectFails_handled {again : Bool} (hi : s.ActivityInv)
    (hc : s.comesInTurn (.uploadConnectFails again) = true) (hup : s.isAsyncUploading = true) :
    Handled s (s.callsOf (.uploadConnectFails again)) (s.uploadConnectFails again) := by
  have hne := hi.activity_ne hup
  apply Handled.of_quiet _ hi
  apply uploadConnectFails_acts again hne
  intro hagain hrequest
  simpa [comesInTurn, hagain, Option.isSome_iff_ne_none.mp hrequest, findsOwnUpload] using hc

theorem finish_acts : Acts s [] uploads s.finish := by
  unfold finish
  dsimp only
  have hfinished : Acts s [] uploads { s with childConnected := false, phase := .finished } :=
    .of_same rfl rfl rfl rfl id
  apply hfinished.after
  exact acts_ite (.storing _ rfl) (.refl _)

theorem withSession_handled {session : Nat} {f : Session → Option DocumentBroker}
    (hi : s.ActivityInv) (h : s.withSession session f = some s')
    (hf : ∀ x, findSession s.sessions session = some x → f x = some s' → Acts s calls false s') :
    Handled s calls s' := by
  obtain ⟨x, hx, hs⟩ := Option.bind_eq_some_iff.mp h
  exact .of_quiet (hf x hx hs) hi

theorem handle_handled {e : Event} (hi : s.ActivityInv) (hc : s.comesInTurn e = true)
    (h : s.handle e = some s') : Handled s (s.callsOf e) s' := by
  cases e with
  | saveResponse id session => exact saveResponse_handled hi hc h
  | saveToStorage session force => exact saveToStorage_handled hi hc h
  | saveAs session target isExport => exact saveAs_handled hi hc h
  | uploadReply reply again => exact uploadReply_handled hi hc h
  | uploadConnectFails again =>
      obtain ⟨hup, hfailed⟩ := Option.ite_none_right_eq_some.mp h
      cases hfailed
      exact uploadConnectFails_handled hi hc hup
  | fileInfo time size =>
      exact completeFileInfo_handled hi (fun t _ => fileInfoPassed_acts time size) h
  | fileInfoFails unauthorized =>
      exact completeFileInfo_handled hi (fun t session => fileInfoFailed_acts session unauthorized) h
  | poll starts =>
      obtain ⟨-, hpolled⟩ := Option.ite_none_right_eq_some.mp h
      cases hpolled
      exact pollOnce_handled starts hi
  | manualSave session extendedData =>
      apply withSession_handled hi h
      intro x hx hsaved
      obtain ⟨-, hsaved⟩ := Option.ite_none_right_eq_some.mp hsaved
      cases hsaved
      have hid : x.id = session := by
        simpa using List.find?_some hx
      rw [hid]
      exact manualSave_acts session extendedData
  | switchToOffline session =>
      apply withSession_handled hi h
      intro x hx hswitched
      cases hswitched
      simp only [callsOf, hx]
      exact startSwitchingToOffline_acts x
  | removeSession session =>
      apply withSession_handled hi h
      intro x hx hremoved
      cases hremoved
      simp only [callsOf, hx]
      exact removeSession_acts x
  | sessionGone session =>
      apply withSession_handled hi h
      intro x _ hgone
      obtain ⟨-, hgone⟩ := Option.ite_none_right_eq_some.mp hgone
      cases hgone
      exact .of_same rfl rfl rfl rfl id
  | kitFinishes id answer wasModified file =>
      obtain ⟨-, hfinished⟩ := Option.ite_none_right_eq_some.mp h
      cases hfinished
      apply Handled.of_quiet (.storing _ _) hi
      unfold Storing.kitFinishes
      split <;> rfl
  | leaveLoop =>
      obtain ⟨-, hleft⟩ := Option.ite_none_right_eq_some.mp h
      cases hleft
      exact .of_quiet (.of_same rfl rfl rfl rfl id) hi
  | finish =>
      obtain ⟨-, hfinished⟩ := Option.ite_none_right_eq_some.mp h
      cases hfinished
      exact .of_quiet finish_acts hi
  | renameFile session filename =>
      cases h
      exact .of_quiet (handleRenameFileCommand_acts session filename) hi
  | switchToOnline =>
      cases h
      exact .of_quiet startSwitchingToOnline_acts hi
  | join session time size =>
      cases h
      exact .of_quiet (addSession_acts session time size) hi
  | joinFails =>
      cases h
      exact .of_quiet addSessionFailed_acts hi
  | closeDocument reason =>
      cases h
      exact .of_quiet (closeDocument_acts reason) hi
  | kitLost unexpected =>
      cases h
      have hlost : Acts s [] false { s with childConnected := false } :=
        .of_same rfl rfl rfl rfl id
      exact .of_quiet (hlost.after (disconnectedFromKit_acts unexpected)) hi
  | stop reason =>
      cases h
      exact .of_quiet (stop_acts reason) hi
  | expire session =>
      cases h
      exact .of_quiet (.of_same rfl rfl rfl rfl id) hi
  | modifyActivity | userActivity | modifiedStatus | viewLoaded | setPermissions | closeFrame |
      interactive | shutdown | terminate | migrationMessage =>
      cases h
      exact .of_quiet (.of_same rfl rfl rfl rfl id) hi

end DocumentBroker

end CoolOnline.Broker
