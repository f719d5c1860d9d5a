/-
# AdManager.Business.Bounds — accesses whose bounds depend on what a peer sends.

Translated from `AdManager.cpp` and `player.cpp`. Two accesses take it for granted that received data has
a certain length. `handleRequest` copies four bytes out of the content of `getAd` and `getAdFile`. And
`OpenMem` converts the file name of the item it opens into an array of 2046 characters and writes the
terminator at the index that is the length of the name in bytes; the name comes from the ad that the table
had for an id of the lock screen when the item was made.

Neither length is looked at on the way, so the bounds are those of the messages (`inBounds_iff`).
-/
import AdManager.Lib.Buffer
import AdManager.Business.CodecRefine
import AdManager.Business.Player

namespace AdManager.Business

open AdManager.Wire AdManager.Lib AdManager.Server

/-! ## The id of a request -/

/-- The four bytes that `handleRequest` copies, as far as they are in the content. -/
def idBytes (msg : Message) : Option Bytes := readAt msg.content 0 4

/-- **If `handleRequest` reads an id, it is in the content.** -/
def IdWithin (msg : Message) : Prop :=
  msg.method = ascii "getAd" ∨ msg.method = ascii "getAdFile" → (idBytes msg).isSome

theorem idWithin_iff {msg : Message} :
    IdWithin msg ↔
      (msg.method = ascii "getAd" ∨ msg.method = ascii "getAdFile" → 4 ≤ msg.content.length) := by
  unfold IdWithin idBytes
  rw [readAt_isSome_iff, Nat.zero_add]

/-- The id is then read from these bytes, whatever follows them. -/
theorem readId_of_idBytes {msg : Message} {bytes : Bytes} (h : idBytes msg = some bytes) :
    readId msg.content = readId bytes := by
  obtain ⟨hbound, rfl⟩ : 4 ≤ msg.content.length ∧ msg.content.take 4 = bytes := by
    simpa [idBytes, readAt] using h
  generalize msg.content = content at hbound
  rcases content with _ | ⟨a, _ | ⟨b, _ | ⟨c, _ | ⟨d, rest⟩⟩⟩⟩
  · simp at hbound
  · simp at hbound
  · simp at hbound
  · simp at hbound
  · rfl

/-- A handler that stays within the content reads no memory behind the string. -/
theorem handleRequest_of_idWithin (c : Cache) {msg : Message} (h : IdWithin msg) :
    handleRequest c msg ≠ .outOfBounds := by
  have hid : msg.method = ascii "getAd" ∨ msg.method = ascii "getAdFile" →
      readId msg.content ≠ none := by
    intro hmethod
    have hlen := idWithin_iff.mp h hmethod
    rw [ne_eq, ← Option.not_isSome_iff_eq_none, readId_isSome]
    omega
  unfold handleRequest
  split
  · simp
  split
  · simp
  split
  · next hmethod =>
      cases hread : readId msg.content with
      | none => exact absurd hread (hid (Or.inl hmethod))
      | some id => simp
  split
  · next hmethod =>
      cases hread : readId msg.content with
      | none => exact absurd hread (hid (Or.inr hmethod))
      | some id =>
          dsimp only
          split <;> simp
  · simp

/-! ## The file name of an item -/

/-- The code page of `MultiByteToWideChar`: no byte gives more than one wide character. -/
structure CodePage where
  toWide : Bytes → List UInt16
  length_le : ∀ name, (toWide name).length ≤ name.length

/-- The code page of plain bytes. -/
def CodePage.bytes : CodePage where
  toWide name := name.map fun b => b.toUInt16
  length_le _ := (List.length_map _).le

/-- `OpenMem` up to its first call: `pwszFileName`, which is all zero, takes the converted name, and a
zero at the index `size`. The limit it hands to the conversion is twice the number of bytes and never
cuts anything off. -/
def openMemName (cp : CodePage) (name : Bytes) : Option (List UInt16) :=
  let size := name.length
  (writeAt (List.replicate 2046 0) 0 (cp.toWide name)).bind fun pwszFileName =>
    writeAt pwszFileName size [0]

/-- **The name fits when it has fewer bytes than the array has characters**, since the terminator goes to
the index of the last byte plus one, however few characters the name has. -/
theorem openMemName_isSome_iff (cp : CodePage) {name : Bytes} :
    (openMemName cp name).isSome ↔ name.length < 2046 := by
  have hwide := cp.length_le name
  show ((writeAt (List.replicate 2046 0) 0 (cp.toWide name)).bind _).isSome ↔ _
  rw [writeAt_writeAt_isSome_iff, List.length_replicate, List.length_singleton]
  omega

/-- And then the array holds the name and zeros. -/
theorem openMemName_eq (cp : CodePage) {name : Bytes} (h : name.length < 2046) :
    openMemName cp name =
      some (cp.toWide name ++ List.replicate (2046 - (cp.toWide name).length) 0) := by
  have hwide := cp.length_le name
  unfold openMemName
  dsimp only
  rw [writeAt_replicate 0 (by omega), Option.bind_some]
  apply writeAt_of_readAt
  -- the terminator goes to a place behind the name, where a zero stands already
  rw [List.length_singleton, readAt_replicate 0 hwide (by omega)]
  rfl

/-! ## The names that an event brings in -/

/-- The ad that the table has for a key once the list `ads` is in it: the one it had, or else the first
one of the list. -/
def firstAd (m : PMap UInt32 Ad) (ads : List Ad) (k : UInt32) : Option Ad :=
  (m k).or (ads.find? fun ad => ad.key = k)

theorem insertAll_pairs (m : PMap UInt32 Ad) (ads : List Ad) (k : UInt32) :
    m.insertAll (pairs ads) k = firstAd m ads k := by
  rw [PMap.insertAll_apply, firstAd, pairs, List.find?_map, Option.map_map]
  congr 1
  have hkey : (fun ad : Ad => decide (k = ad.key)) = fun ad => decide (ad.key = k) := by
    funext ad
    exact decide_eq_decide.mpr eq_comm
  show Option.map id (ads.find? fun ad => decide (k = ad.key)) = _
  rw [Option.map_id, hkey]
  rfl

/-- The file names of the items that an event makes: a list that is accepted makes one for each id of the
lock screen, if there is a player. -/
def newNames (x : Environment) (s : AdManagerImpl) : BizEvent → List Bytes
  | .adListAnswer rsp =>
      match x.receivedAds rsp with
      | none => []
      | some ads =>
          if s.hasPlayer then
            s.lockIdsRead.map fun id => ((firstAd s.mapAd ads id.toUInt32).getD {}).fileName
          else []
  | _ => []

/-- The file names of the items of the player. -/
def AdManagerImpl.names (s : AdManagerImpl) : List Bytes := s.playList.map PlayItem.filename

/-- A new file changes no name. -/
theorem updatePlayList_names (s : AdManagerImpl) (id : UInt32) (body : Bytes) :
    (s.updatePlayList id body).names = s.names := by
  simp only [AdManagerImpl.names, AdManagerImpl.updatePlayList, List.map_map]
  apply List.map_congr_left
  intro item _
  -- the item of the ad gets its file, the others stay
  simp only [Function.comp_apply]
  split <;> rfl

theorem adListReceived_names (s : AdManagerImpl) (ads : List Ad) (content : Bytes) :
    (s.adListReceived ads content).names = s.names ++
      if s.hasPlayer then
        s.lockIdsRead.map fun id => ((firstAd s.mapAd ads id.toUInt32).getD {}).fileName
      else [] := by
  rw [AdManagerImpl.adListReceived_eq]
  unfold AdManagerImpl.names
  cases s.hasPlayer with
  | false => simp
  | true =>
      simp only [if_true, List.map_append, List.map_map, List.append_cancel_left_eq]
      apply List.map_congr_left
      intro id _
      -- `mapAd[id]` is read after the list is in the table
      simp only [Function.comp_apply, playItem, insertAll_pairs]

/-- **What an event does to the names.** -/
theorem names_step {x : Environment} {b b' : ThreadBiz} {e : BizEvent} (hs : step x b e = some b') :
    b'.impl.names = b.impl.names ++ newNames x b.impl e := by
  cases dataStep hs with
  | same hquiet hdata =>
      have hnone : newNames x b.impl e = [] := by
        cases e with
        | adListAnswer rsp =>
            -- the table was not touched, so this list was refused
            have hrefused : x.receivedAds rsp = none := hquiet
            simp only [newNames, hrefused]
        | _ => rfl
      rw [hdata.impl, hnone, List.append_nil]
  | policy rsp he hdata =>
      subst he
      show b'.impl.names = b.impl.names ++ []
      rw [List.append_nil, hdata.impl]
      rcases b.impl.policyReceived_cases x rsp with ⟨_, heq⟩ | ⟨_, _, heq⟩ | ⟨_, _, heq⟩ <;>
        rw [heq] <;> rfl
  | list rsp ads he hads hdata =>
      subst he
      -- the pass that starts then leaves the items alone
      obtain ⟨_, hplay⟩ := ThreadBiz.Showing.pass_screen (b.impl.adListReceived ads rsp.content)
      have hnames := congrArg (List.map PlayItem.filename) hplay
      have hpass : (b.impl.adListReceived ads rsp.content).pass.names =
          (b.impl.adListReceived ads rsp.content).names := hnames
      rw [hdata.impl, hpass, adListReceived_names]
      simp only [newNames, hads]
  | retry f he hf htimer hend hdata =>
      subst he
      show b'.impl.names = b.impl.names ++ []
      rw [List.append_nil, hdata.impl]
      rfl
  | image id ad urls p body rehash he hstage hverified hdata =>
      subst he
      show b'.impl.names = b.impl.names ++ []
      rw [List.append_nil, hdata.impl]
      rfl
  | file id ad p rsp rehash he hstage hdata =>
      subst he
      show b'.impl.names = b.impl.names ++ []
      rw [List.append_nil, hdata.impl]
      unfold AdManagerImpl.fileReceived
      split
      · dsimp only
        split
        · exact updatePlayList_names _ id rsp.content
        · rfl
      · rfl
  | ad rsp ad he hrec hdata =>
      subst he
      show b'.impl.names = b.impl.names ++ []
      rw [List.append_nil, hdata.impl]
      rfl
  | ended he hdata =>
      subst he
      show b'.impl.names = b.impl.names ++ []
      rw [List.append_nil, hdata.impl]
      rfl

/-! ## Runs -/

/-- A process with its network thread: the business thread and the player, and the requests that
`handleRequest` was called with, with what it did. -/
structure Node where
  screen : BarClient
  handled : List (Message × Handled) := []

/-- What can happen: an event of the business thread or of the player, or a request that a peer sent. -/
inductive NodeEvent where
  | screen (e : ClientEvent)
  | request (msg : Message)
  deriving DecidableEq, Repr

/-- One event. -/
def nodeStep (x : Environment) (s : Node) : NodeEvent → Option Node
  | .screen e => (clientStep x s.screen e).map fun c => { s with screen := c }
  | .request msg =>
      some { s with handled := s.handled ++ [(msg, handleRequest s.screen.biz.impl.cache msg)] }

/-- The start, of a bar server or a client, with or without a player. -/
def Node.init (barId : Bytes) (isBarServer hasPlayer : Bool) : Node where
  screen := { biz := ThreadBiz.init barId isBarServer hasPlayer }

/-- **No access out of bounds**: every id was read within the content it came in, and the name of every
item fits into the array of `OpenMem`. -/
structure InBounds (cp : CodePage) (s : Node) : Prop where
  requests : ∀ h ∈ s.handled, IdWithin h.1
  names : ∀ item ∈ s.screen.biz.impl.playList, (openMemName cp item.filename).isSome

/-- **The condition.** A request for an ad or its file has four bytes of content. And when a list is
accepted by a client with a player, the ad that the table then has for an id of the lock screen, if it
has one, has a file name of fewer than 2046 bytes. -/
def LengthsFit (x : Environment) (s : Node) : NodeEvent → Prop
  | .request msg =>
      msg.method = ascii "getAd" ∨ msg.method = ascii "getAdFile" → 4 ≤ msg.content.length
  | .screen (.biz (.adListAnswer rsp)) =>
      s.screen.biz.impl.hasPlayer = true → ∀ ads ∈ x.receivedAds rsp,
        ∀ id ∈ s.screen.biz.impl.lockIdsRead,
          ∀ ad ∈ firstAd s.screen.biz.impl.mapAd ads id.toUInt32, ad.fileName.length < 2046
  | _ => True

instance (x : Environment) (s : Node) : (e : NodeEvent) → Decidable (LengthsFit x s e)
  | .request msg => inferInstanceAs (Decidable
      (msg.method = ascii "getAd" ∨ msg.method = ascii "getAdFile" → 4 ≤ msg.content.length))
  | .screen .notifyPlay => .isTrue trivial
  | .screen (.biz e) =>
      match e with
      | .adListAnswer rsp => inferInstanceAs (Decidable
          (s.screen.biz.impl.hasPlayer = true → ∀ ads ∈ x.receivedAds rsp,
            ∀ id ∈ s.screen.biz.impl.lockIdsRead,
              ∀ ad ∈ firstAd s.screen.biz.impl.mapAd ads id.toUInt32, ad.fileName.length < 2046))
      | .tick _ => .isTrue trivial
      | .fire _ => .isTrue trivial
      | .runHandler => .isTrue trivial
      | .connected => .isTrue trivial
      | .policyAnswer _ => .isTrue trivial
      | .next => .isTrue trivial
      | .fetchEnded _ _ => .isTrue trivial
      | .fileAnswer _ _ => .isTrue trivial
      | .requestAd _ => .isTrue trivial
      | .adAnswer _ => .isTrue trivial
      | .endBusiness => .isTrue trivial

/-- The names that an event brings in fit exactly when it meets the condition. -/
theorem newNames_fit_iff (x : Environment) (s : Node) (e : BizEvent) :
    (∀ name ∈ newNames x s.screen.biz.impl e, name.length < 2046) ↔
      LengthsFit x s (.screen (.biz e)) := by
  cases e with
  | adListAnswer rsp =>
      show (∀ name ∈ newNames x s.screen.biz.impl (.adListAnswer rsp), name.length < 2046) ↔
        (s.screen.biz.impl.hasPlayer = true → ∀ ads ∈ x.receivedAds rsp,
          ∀ id ∈ s.screen.biz.impl.lockIdsRead,
            ∀ ad ∈ firstAd s.screen.biz.impl.mapAd ads id.toUInt32, ad.fileName.length < 2046)
      cases hads : x.receivedAds rsp with
      | none => simp [newNames, hads]
      | some ads =>
          cases hplayer : s.screen.biz.impl.hasPlayer with
          | false => simp [newNames, hads, hplayer]
          | true =>
              simp only [newNames, hads, hplayer, if_true, List.forall_mem_map, Option.mem_some_iff,
                forall_eq', true_imp_iff]
              refine forall₂_congr fun id _ => ?_
              cases firstAd s.screen.biz.impl.mapAd ads id.toUInt32 with
              | none => simp
              | some ad => simp
  | _ => exact iff_of_true (fun name hname => absurd hname (by simp [newNames])) trivial

/-- Whether the names of all items fit, by their lengths. -/
theorem names_inBounds_iff (cp : CodePage) (s : AdManagerImpl) :
    (∀ item ∈ s.playList, (openMemName cp item.filename).isSome) ↔
      ∀ name ∈ s.names, name.length < 2046 := by
  unfold AdManagerImpl.names
  simp only [List.forall_mem_map, openMemName_isSome_iff]

/-- **A step stays in bounds exactly when it meets the condition.** -/
theorem nodeStep_inBounds {x : Environment} {cp : CodePage} {s s' : Node} {e : NodeEvent}
    (h : InBounds cp s) (hs : nodeStep x s e = some s') : InBounds cp s' ↔ LengthsFit x s e := by
  cases e with
  | request msg =>
      obtain rfl := Option.some.inj hs
      show _ ↔ (msg.method = ascii "getAd" ∨ msg.method = ascii "getAdFile" → 4 ≤ msg.content.length)
      rw [← idWithin_iff]
      constructor
      · intro h'
        exact h'.requests _ (List.mem_append_right _ (List.mem_singleton_self _))
      · intro hmsg
        refine ⟨?_, h.names⟩
        intro r hr
        rcases List.mem_append.mp hr with hr | hr
        · exact h.requests r hr
        · obtain rfl := List.mem_singleton.mp hr
          exact hmsg
  | screen e =>
      obtain ⟨c, hc, rfl⟩ := Option.map_eq_some_iff.mp hs
      rcases BarClient.step_cases hc with ⟨e₀, b, rfl, hb, rfl, _⟩ | ⟨rfl, _, playList, hperm, hbiz⟩
      · have hnames := (names_inBounds_iff cp s.screen.biz.impl).mp h.names
        rw [← newNames_fit_iff]
        constructor
        · intro h' name hname
          apply (names_inBounds_iff cp c.biz.impl).mp h'.names
          rw [names_step hb]
          exact List.mem_append_right _ hname
        · intro hnew
          refine ⟨h.requests, (names_inBounds_iff cp c.biz.impl).mpr ?_⟩
          intro name hname
          rw [names_step hb] at hname
          rcases List.mem_append.mp hname with hname | hname
          · exact hnames name hname
          · exact hnew name hname
      · -- the list is turned
        refine iff_of_true ⟨h.requests, ?_⟩ trivial
        intro item hitem
        rw [hbiz] at hitem
        exact h.names item (hperm.mem_iff.mp hitem)

/-- **All accesses stay in bounds exactly when every message has the lengths they need.** Here the peers
send whatever they like, in any order, to a server or a client. -/
theorem inBounds_iff (x : Environment) (cp : CodePage) (barId : Bytes) (isBarServer hasPlayer : Bool)
    {es : List NodeEvent} {s' : Node}
    (h : run (nodeStep x) (Node.init barId isBarServer hasPlayer) es = some s') :
    EveryState (nodeStep x) (InBounds cp) (Node.init barId isBarServer hasPlayer) es ↔
      EveryStep (nodeStep x) (LengthsFit x) (Node.init barId isBarServer hasPlayer) es := by
  have hinit : InBounds cp (Node.init barId isBarServer hasPlayer) :=
    ⟨by simp [Node.init], by simp [Node.init, ThreadBiz.init]⟩
  refine everyState_iff_everyStep hinit (fun _ ht => ht) ?_ ?_ h
  · intro t e t' ht hfit hstep
    exact (nodeStep_inBounds ht hstep).mpr hfit
  · intro t e t' ht hstep ht'
    exact (nodeStep_inBounds ht hstep).mp ht'

/-- A refresh for the lock screen, up to the list `adList`, and a request for the file of ad 1. -/
def boundedRun (adList : Bytes) : List NodeEvent :=
  [.screen (.biz .connected), .screen (.biz (.policyAnswer { content := lockPolicy })),
    .screen (.biz (.adListAnswer { content := adList })),
    .request (Ask.getAdFile 1).message]

/-- The file name, converted, has its terminator within the array. -/
theorem inBounds_iff_refresh :
    EveryState (nodeStep sampleEnvironment) (InBounds CodePage.bytes) (Node.init (ascii "1") false true)
        (boundedRun sampleAdList) ∧
      ∃ s, run (nodeStep sampleEnvironment) (Node.init (ascii "1") false true)
          (boundedRun sampleAdList) = some s ∧
        s.screen.biz.impl.names = [sampleAd.fileName] := by
  have hview : (run (nodeStep sampleEnvironment) (Node.init (ascii "1") false true)
      (boundedRun sampleAdList)).map (fun s => s.screen.biz.impl.names) = some [sampleAd.fileName] := by
    decide +kernel
  obtain ⟨s, hs, hnames⟩ := Option.map_eq_some_iff.mp hview
  have hbounds := inBounds_iff sampleEnvironment CodePage.bytes (ascii "1") false true hs
  exact ⟨hbounds.mpr (by decide +kernel), s, hs, hnames⟩

/-- A list whose ad 1 has a file name of 2046 bytes, serialized. -/
def longNameList : Bytes :=
  ({ ads := [{ id := 1, fileName := List.replicate 2046 97 }] } : Result).serialize

/-- **Two messages that go out of bounds.** A request for a file with one byte of content, and an ad list
with a file name of 2046 bytes, whose terminator has no place in the array. -/
theorem inBounds_broken :
    (∃ s, run (nodeStep sampleEnvironment) (Node.init (ascii "1") true false)
        [.request { method := ascii "getAdFile", content := [1] }] = some s ∧
      s.handled.map Prod.snd = [.outOfBounds] ∧ ¬ InBounds CodePage.bytes s) ∧
    ∃ s, run (nodeStep (sampleEnvironment.withCode sampleRuntime)) (Node.init (ascii "1") false true)
        (boundedRun longNameList) = some s ∧
      s.screen.biz.impl.names.map List.length = [2046] ∧ ¬ InBounds CodePage.bytes s := by
  constructor
  · refine ⟨_, rfl, by decide +kernel, ?_⟩
    intro h
    have hlen := idWithin_iff.mp (h.requests _ (List.mem_singleton_self _)) (Or.inr rfl)
    exact absurd hlen (by decide)
  · have hview : (run (nodeStep (sampleEnvironment.withCode sampleRuntime))
        (Node.init (ascii "1") false true) (boundedRun longNameList)).map
        (fun s => s.screen.biz.impl.names.map List.length) = some [2046] := by
      decide +kernel
    obtain ⟨s, hs, hview⟩ := Option.map_eq_some_iff.mp hview
    refine ⟨s, hs, hview, ?_⟩
    intro h
    obtain ⟨name, hname, hlen⟩ := List.mem_map.mp
      (show 2046 ∈ s.screen.biz.impl.names.map List.length by rw [hview]; exact List.mem_singleton_self _)
    have hfits := (names_inBounds_iff CodePage.bytes s.screen.biz.impl).mp h.names name hname
    omega

end AdManager.Business
