import ArcanaServer.Keys.Tables

namespace ArcanaServer.Keys

open Library ArcanaServer.Matrix Function List KeysAnswer

def KeyTables.crossSigning (tables : KeyTables) (userId : UserId) :
    (String → Option Json) × Option KeyId × Option KeyId × Option KeyId :=
  (fun id => tables.keyidKey (userId, id), tables.useridMasterkeyid userId,
    tables.useridSelfsigningkeyid userId,
    tables.useridUsersigningkeyid userId)

def KeysAnswer.of (answer : KeysAnswer) (userId : UserId) :
    Option Json × Option Json × Option Json × Option DeviceKeys :=
  (answer.masterKeys userId, answer.selfSigningKeys userId,
    answer.userSigningKeys userId, answer.deviceKeys userId)

/-- The stored cross-signing keys, and what is gathered, stay as they are for
the users of all servers but one. -/
def Untouched {Answer Part : Type} (part : Answer → UserId → Part)
    (server : ServerName) (before after : Gathered Answer) : Prop :=
  ∀ userId, serverName userId ≠ some server →
    after.tables.crossSigning userId = before.tables.crossSigning userId ∧
      part after.answer userId = part before.answer userId

section

variable (federation : Federation)

def QueriesConfined : Prop :=
  ∀ viewer input arrived tables,
    arrived.Perm (askedServers federation.ourServer input) →
    ∀ earlier server later reached, arrived = earlier ++ server :: later →
      getKeysHelper federation viewer input earlier
          { tables, answer := empty } = .ok () reached →
      Untouched of server reached
        (ended (mergeKeys federation viewer server
          (federation.getKeys server (requestTo server input)) reached))

def ClaimAnswer.empty : ClaimAnswer := ⟨fun _ => none, fun _ => none⟩

def ClaimsConfined : Prop := ∀ input arrived tables,
    arrived.Perm (askedServers federation.ourServer input) →
    ∀ earlier server later reached, arrived = earlier ++ server :: later →
      claimKeysHelper federation input earlier
          { tables, answer := ClaimAnswer.empty } = .ok () reached →
      Untouched ClaimAnswer.oneTimeKeys server reached
        (ended (mergeClaims server
          (federation.claimKeys server (requestTo server input)) reached))

def OwnUsers {α : Type} (server : ServerName) (values : UserMap α) : Prop :=
  ∀ userId ∈ values, serverName userId = some server

def readable (format : Format) (entry : (_ : UserId) × Json) : Bool :=
  (parseMasterKey format entry.1 entry.2).isOk

/-- The users of a response, as far as it is merged: a master key that is
refused ends the query. -/
structure NamesOwnUsers (format : Format) (server : ServerName)
    (response : FederationKeys) : Prop where
  masterKeys : ∀ entry ∈ response.masterKeys.entries.takeWhile
    (readable format), serverName entry.1 = some server
  selfSigningKeys : response.masterKeys.entries.all (readable format) = true →
    OwnUsers server response.selfSigningKeys
  deviceKeys : response.masterKeys.entries.all (readable format) = true →
    OwnUsers server response.deviceKeys

/-- A request that this server sends to another one. -/
structure AskedOf {α : Type} (ourServer server : ServerName)
    (request : List (UserId × α)) : Prop where
  remote : server ≠ ourServer
  nonempty : request ≠ []
  users : ∀ entry ∈ request, serverName entry.1 = some server

def HonestKeys : Prop :=
  ∀ server request response, AskedOf federation.ourServer server request →
    federation.getKeys server request = .ok response →
    NamesOwnUsers federation.format server response

def HonestClaims : Prop :=
  ∀ server request response, AskedOf federation.ourServer server request →
    federation.claimKeys server request = .ok response →
    OwnUsers server response

end

section

variable {α : Type} {ourServer server : ServerName}
  {input : List (UserId × α)}

theorem askedOf_requestTo (asked : server ∈ askedServers ourServer input) :
    AskedOf ourServer server (requestTo server input) := by
  unfold askedServers at asked
  rw [mem_dedup, mem_filterMap] at asked
  obtain ⟨entry, listed, named⟩ := asked
  obtain ⟨inside, remote⟩ := mem_filter.mp listed
  refine ⟨?_, ?_, ?_⟩
  · rintro rfl
    simp [userIsLocal, named] at remote
  · refine ne_nil_of_mem (a := entry) (mem_filter.mpr ⟨inside, ?_⟩)
    simp [named]
  · intro other member
    simpa [requestTo] using (mem_filter.mp member).2

namespace AskedOf

variable {request : List (UserId × α)}

section

variable (asked : AskedOf ourServer server request)
include asked

theorem requestTo : requestTo server request = request := by
  refine filter_eq_self.mpr (fun entry member => ?_)
  simp [asked.users entry member]

theorem not_local :
    ∀ entry ∈ request, userIsLocal ourServer entry.1 = false := by
  intro entry member
  simp [userIsLocal, asked.users entry member, asked.remote]

theorem askedServers : askedServers ourServer request = [server] := by
  have all : request.filter (fun entry => !userIsLocal ourServer entry.1) =
      request :=
    filter_eq_self.mpr (fun entry member => by
      simp [asked.not_local entry member])
  have names : request.filterMap (fun entry => serverName entry.1) =
      replicate request.length server := by
    have mapped : request.filterMap (fun entry => serverName entry.1) =
        request.map (fun _ => server) := by
      rw [← filterMap_eq_map]
      refine filterMap_congr (fun entry member => ?_)
      simp [asked.users entry member]
    rw [mapped, map_const']
  unfold Keys.askedServers
  rw [all, names]
  exact replicate_dedup (by simpa using asked.nonempty)

end

end AskedOf

end

section

variable {Answer Part : Type} {part : Answer → UserId → Part}
  {server : ServerName}

instance : IsPreorder (Gathered Answer) (Untouched part server) where
  refl _ _ _ := ⟨rfl, rfl⟩
  trans _ _ _ first second user foreign :=
    ⟨(second user foreign).1.trans (first user foreign).1,
      (second user foreign).2.trans (first user foreign).2⟩

theorem keeps_answering {change : Answer → Answer}
    (other : ∀ answer userId, serverName userId ≠ some server →
      part (change answer) userId = part answer userId) :
    Keeps (Untouched part server) (answering change) :=
  fun gathered user foreign => ⟨rfl, other gathered.answer user foreign⟩

end

theorem crossSigning_putMaster {tables : KeyTables} {owner userId : UserId}
    {id : String} {key : Json} (other : userId ≠ owner) :
    (tables.putMaster owner (owner, id) key).crossSigning userId =
      tables.crossSigning userId := by
  simp [KeyTables.crossSigning, KeyTables.putMaster, other]

theorem parseMasterKey_user {format : Format} {userId : UserId} {key : Json}
    {found : KeyId × CrossSigningKey}
    (parsed : parseMasterKey format userId key = .ok found) :
    found.1.1 = userId := by
  unfold parseMasterKey at parsed
  cases only : onlyKey format (fun _ => "Invalid master key")
      "Master key contained no key."
      "Master key contained more than one key." key with
  | error error =>
      rw [only] at parsed
      cases parsed
  | ok value =>
      rw [only] at parsed
      cases parsed
      rfl

theorem addMasterKey_run (format : Format) (userId : UserId) (key : Json)
    (tables : KeyTables) :
    addCrossSigningKeys format userId (some key) none none tables =
      match parseMasterKey format userId key with
      | .ok found => .ok () (tables.putMaster userId found.1 key)
      | .error error => .error error tables := by
  cases parsed : parseMasterKey format userId key with
  | error error | ok found =>
      unfold addCrossSigningKeys
      simp only [parsed]
      rfl

theorem refused_of_unreadable {format : Format} {entry : (_ : UserId) × Json}
    (unreadable : readable format entry = false) :
    ∃ error, parseMasterKey format entry.1 entry.2 = .error error := by
  unfold readable at unreadable
  cases read : parseMasterKey format entry.1 entry.2 with
  | error error => exact ⟨error, rfl⟩
  | ok found => simp [read, Except.isOk, Except.toBool] at unreadable

theorem read_of_readable {format : Format} {entry : (_ : UserId) × Json}
    (reads : readable format entry = true) :
    ∃ found, parseMasterKey format entry.1 entry.2 = .ok found := by
  unfold readable at reads
  cases read : parseMasterKey format entry.1 entry.2 with
  | error error => simp [read, Except.isOk, Except.toBool] at reads
  | ok found => exact ⟨found, rfl⟩

section

variable {federation : Federation} {viewer : Viewer} {userId : UserId}
  {masterKey : Json} {gathered : Gathered KeysAnswer}

def Gathered.putMaster (gathered : Gathered KeysAnswer) (userId : UserId)
    (keyId : KeyId) (raw : Json) : Gathered KeysAnswer where
  tables := gathered.tables.putMaster userId keyId raw
  answer := { gathered.answer with
    masterKeys := Function.update gathered.answer.masterKeys userId (some raw) }

theorem mergeMasterKey_refused {error : Error}
    (refused : parseMasterKey federation.format userId masterKey =
      .error error) :
    mergeMasterKey federation viewer userId masterKey gathered =
      .error error gathered := by
  unfold mergeMasterKey
  rw [refused]
  rfl

theorem mergeMasterKey_run {found : KeyId × CrossSigningKey}
    (read : parseMasterKey federation.format userId masterKey = .ok found) :
    mergeMasterKey federation viewer userId masterKey gathered =
      match withOurSignatures federation viewer gathered.tables userId found.1
        found.2 with
      | .error error => .error error gathered
      | .ok signed =>
          match parseMasterKey federation.format userId
            (federation.format.encode signed) with
          | .error error => .error error gathered
          | .ok stored => .ok () (gathered.putMaster userId stored.1
              (federation.format.encode signed)) := by
  have begins : (liftExcept (Except.ok found : Except Error _) :
      Gather KeysAnswer _) gathered = .ok found gathered := rfl
  unfold mergeMasterKey
  rw [read, bind_of_ok _ begins]
  refine (get_bind _ gathered).trans ?_
  cases signing : withOurSignatures federation viewer gathered.tables userId
      found.1 found.2 with
  | error error => rfl
  | ok signed =>
      have signs : (liftExcept (Except.ok signed : Except Error _) :
          Gather KeysAnswer _) gathered = .ok signed gathered := rfl
      rw [bind_of_ok _ signs]
      have adds := addMasterKey_run federation.format userId
        (federation.format.encode signed) gathered.tables
      cases stored : parseMasterKey federation.format userId
          (federation.format.encode signed) with
      | error error =>
          rw [stored] at adds
          simp only [stored]
          refine bind_of_error _ ?_
          unfold onTables
          rw [adds]
      | ok again =>
          rw [stored] at adds
          have stores : (onTables (addCrossSigningKeys federation.format userId
              (some (federation.format.encode signed)) none none) :
                Gather KeysAnswer Unit) gathered =
              .ok () { gathered with
                tables := gathered.tables.putMaster userId again.1
                  (federation.format.encode signed) } := by
            unfold onTables
            rw [adds]
          rw [bind_of_ok _ stores]
          simp only [stored]
          rfl

theorem mergeMasterKey_keeps {server : ServerName}
    (own : readable federation.format ⟨userId, masterKey⟩ = true →
      serverName userId = some server) :
    Keeps (Untouched of server)
      (mergeMasterKey federation viewer userId masterKey) := by
  intro gathered user foreign
  cases read : parseMasterKey federation.format userId masterKey with
  | error error =>
      rw [mergeMasterKey_refused read]
      exact ⟨rfl, rfl⟩
  | ok found =>
      have other : user ≠ userId := by
        rintro rfl
        exact foreign (own (by simp [readable, read, Except.isOk,
          Except.toBool]))
      rw [mergeMasterKey_run read]
      split
      · exact ⟨rfl, rfl⟩
      · split
        · exact ⟨rfl, rfl⟩
        next again stored =>
          obtain ⟨⟨owner, id⟩, key⟩ := again
          obtain rfl : owner = userId := parseMasterKey_user stored
          refine ⟨crossSigning_putMaster other, ?_⟩
          simp [ended, Gathered.putMaster, of, other]

end

section

variable {federation : Federation} {viewer : Viewer} {server : ServerName}

theorem mergeMasterKeys_keeps {entries : List ((_ : UserId) × Json)}
    (own : ∀ entry ∈ entries.takeWhile (readable federation.format),
      serverName entry.1 = some server) :
    Keeps (Untouched of server) (entries.forM (fun entry =>
      mergeMasterKey federation viewer entry.1 entry.2)) := by
  induction entries with
  | nil => exact Keeps.pure ()
  | cons entry rest ih =>
      have ownEntry : readable federation.format entry = true →
          serverName entry.1 = some server := by
        intro reads
        refine own entry ?_
        rw [takeWhile_cons_of_pos reads]
        exact mem_cons_self
      intro gathered
      cases reads : readable federation.format entry with
      | false =>
          obtain ⟨error, refused⟩ := refused_of_unreadable reads
          rw [forM_cons, bind_of_error _ (mergeMasterKey_refused refused)]
          exact refl_of (Untouched of server) gathered
      | true =>
          refine (mergeMasterKey_keeps ownEntry).bind (fun _ => ih ?_) gathered
          intro other member
          refine own other ?_
          rw [takeWhile_cons_of_pos reads]
          exact mem_cons_of_mem _ member

theorem mergeMasterKeys_reads {entries : List ((_ : UserId) × Json)}
    {before after : Gathered KeysAnswer}
    (result : entries.forM (fun entry =>
      mergeMasterKey federation viewer entry.1 entry.2) before =
        .ok () after) : entries.all (readable federation.format) = true := by
  induction entries generalizing before with
  | nil => rfl
  | cons entry rest ih =>
      rw [forM_cons] at result
      obtain ⟨_, middle, first, later⟩ := bind_ok result
      rw [all_cons, ih later, Bool.and_true]
      by_contra unreadable
      obtain ⟨error, refused⟩ := refused_of_unreadable
        (Bool.eq_false_iff.mpr unreadable)
      rw [mergeMasterKey_refused refused] at first
      cases first

variable {α : Type} {values : UserId → Option α} {added : UserMap α}

theorem extend_of_not_mem {userId : UserId} (absent : userId ∉ added) :
    extend values added userId = values userId := by
  simp [extend, AList.lookup_eq_none.mpr absent]

theorem OwnUsers.extend_eq (own : OwnUsers server added) {userId : UserId}
    (foreign : serverName userId ≠ some server) :
    extend values added userId = values userId :=
  extend_of_not_mem (fun member => foreign (own userId member))

theorem mergeKeys_keeps {response : Except String FederationKeys}
    (own : ∀ keys, response = .ok keys →
      NamesOwnUsers federation.format server keys) :
    Keeps (Untouched of server)
      (mergeKeys federation viewer server response) := by
  unfold mergeKeys
  cases response with
  | error error => exact keeps_answering (fun answer userId foreign => rfl)
  | ok keys =>
      have names := own keys rfl
      have masters : Yields (Untouched of server)
          (fun _ => keys.masterKeys.entries.all
            (readable federation.format) = true)
          (keys.masterKeys.entries.forM (fun entry =>
            mergeMasterKey federation viewer entry.1 entry.2)) :=
        ⟨mergeMasterKeys_keeps names.masterKeys,
          fun _ _ _ result => mergeMasterKeys_reads result⟩
      refine masters.keeps_bind (fun _ reads => ?_)
      refine keeps_answering (fun answer userId foreign => ?_)
      simp [of, (names.selfSigningKeys reads).extend_eq foreign,
        (names.deviceKeys reads).extend_eq foreign]

theorem HonestKeys.confined (honest : HonestKeys federation) :
    QueriesConfined federation := by
  intro viewer input arrived tables order earlier server later reached split _
  have asked : server ∈ askedServers federation.ourServer input := by
    rw [← order.mem_iff, split]
    simp
  exact mergeKeys_keeps (fun keys answers =>
    honest server _ keys (askedOf_requestTo asked) answers) reached

theorem mergeClaims_keeps {response : Except String (UserMap OneTimeKeys)}
    (own : ∀ keys, response = .ok keys → OwnUsers server keys) :
    Keeps (Untouched ClaimAnswer.oneTimeKeys server)
      (mergeClaims server response) := by
  refine keeps_answering (fun answer userId foreign => ?_)
  cases response with
  | error error => rfl
  | ok keys => exact (own keys rfl).extend_eq foreign

theorem HonestClaims.confined (honest : HonestClaims federation) :
    ClaimsConfined federation := by
  intro input arrived tables order earlier server later reached split _
  have asked : server ∈ askedServers federation.ourServer input := by
    rw [← order.mem_iff, split]
    simp
  exact mergeClaims_keeps (fun keys answers =>
    honest server _ keys (askedOf_requestTo asked) answers) reached

end

section

variable {federation : Federation} {viewer : Viewer}

def RoundTrips (format : Format) : Prop :=
  ∀ key, format.decode (format.encode key) = .ok key

theorem parseMasterKey_congr {format : Format} {userId : UserId}
    {left right : Json} (same : format.decode left = format.decode right) :
    parseMasterKey format userId left = parseMasterKey format userId right := by
  unfold parseMasterKey onlyKey
  rw [same]

theorem decode_of_parseMasterKey {format : Format} {userId : UserId}
    {raw : Json} {found : KeyId × CrossSigningKey}
    (parsed : parseMasterKey format userId raw = .ok found) :
    format.decode raw = .ok found.2 := by
  unfold parseMasterKey onlyKey at parsed
  cases read : format.decode raw with
  | error message =>
      rw [read] at parsed
      cases parsed
  | ok key =>
      rw [read] at parsed
      simp only at parsed
      split at parsed
      · cases parsed
      · cases parsed
        rfl
      · cases parsed

variable (viewer) in
theorem mergeMasterKey_new (roundTrips : RoundTrips federation.format)
    {userId : UserId} {raw : Json} {found : KeyId × CrossSigningKey}
    (parsed : parseMasterKey federation.format userId raw = .ok found)
    {gathered : Gathered KeysAnswer}
    (new : gathered.tables.keyidKey found.1 = none) :
    mergeMasterKey federation viewer userId raw gathered =
      .ok () (gathered.putMaster userId found.1
        (federation.format.encode found.2)) := by
  have signs : withOurSignatures federation viewer gathered.tables userId
      found.1 found.2 = .ok found.2 := by
    simp [withOurSignatures, getKey, new]
  have again : parseMasterKey federation.format userId
      (federation.format.encode found.2) = .ok found := by
    rw [parseMasterKey_congr ((roundTrips found.2).trans
      (decode_of_parseMasterKey parsed).symm)]
    exact parsed
  rw [mergeMasterKey_run parsed, signs]
  simp only [again]

def MastersStay (before after : Gathered KeysAnswer) : Prop :=
  ∀ userId, (before.tables.useridMasterkeyid userId).isSome = true →
    (after.tables.useridMasterkeyid userId).isSome = true

instance : IsPreorder (Gathered KeysAnswer) MastersStay where
  refl _ _ has := has
  trans _ _ _ first second user has := second user (first user has)

theorem mastersStay_putMaster (gathered : Gathered KeysAnswer)
    (userId : UserId) (keyId : KeyId) (raw : Json) :
    MastersStay gathered (gathered.putMaster userId keyId raw) := by
  intro user has
  simp only [Gathered.putMaster, KeyTables.putMaster, update_apply]
  split
  · rfl
  · exact has

theorem mergeMasterKey_mastersStay (userId : UserId) (raw : Json) :
    Keeps MastersStay (mergeMasterKey federation viewer userId raw) := by
  intro gathered
  cases read : parseMasterKey federation.format userId raw with
  | error error =>
      rw [mergeMasterKey_refused read]
      exact refl_of MastersStay gathered
  | ok found =>
      rw [mergeMasterKey_run read]
      split
      · exact refl_of MastersStay gathered
      · split
        · exact refl_of MastersStay gathered
        · exact mastersStay_putMaster gathered _ _ _

theorem answering_mastersStay (change : KeysAnswer → KeysAnswer) :
    Keeps MastersStay (answering change) :=
  fun _ _ has => has

def NoKeys (entries : List ((_ : UserId) × Json))
    (gathered : Gathered KeysAnswer) : Prop :=
  ∀ entry ∈ entries, ∀ id, gathered.tables.keyidKey (entry.1, id) = none

theorem NoKeys.putMaster {entry : (_ : UserId) × Json}
    {rest : List ((_ : UserId) × Json)} {gathered : Gathered KeysAnswer}
    (noKeys : NoKeys (entry :: rest) gathered)
    (distinct : (entry :: rest).NodupKeys) (id : String) (raw : Json) :
    NoKeys rest (gathered.putMaster entry.1 (entry.1, id) raw) := by
  intro other member name
  have differs : other.1 ≠ entry.1 := by
    intro same
    have absent := (nodupKeys_cons.mp distinct).1
    exact absent (same ▸ mem_keys_of_mem member)
  simp only [Gathered.putMaster, KeyTables.putMaster]
  rw [update_of_ne (by simp [differs])]
  exact noKeys other (mem_cons_of_mem _ member) name

variable (viewer) in
theorem mergeMasterKeys_stores (roundTrips : RoundTrips federation.format)
    {entries : List ((_ : UserId) × Json)} (distinct : entries.NodupKeys)
    (gathered : Gathered KeysAnswer) (noKeys : NoKeys entries gathered) :
    (∀ entry ∈ entries.takeWhile (readable federation.format),
      ((ended (entries.forM (fun entry => mergeMasterKey federation viewer
        entry.1 entry.2) gathered)).tables.useridMasterkeyid
          entry.1).isSome = true) ∧
    (entries.all (readable federation.format) = true →
      ∃ after, entries.forM (fun entry => mergeMasterKey federation viewer
        entry.1 entry.2) gathered = .ok () after) := by
  induction entries generalizing gathered with
  | nil => exact ⟨by simp, fun _ => ⟨gathered, rfl⟩⟩
  | cons entry rest ih =>
      cases reads : readable federation.format entry with
      | false =>
          refine ⟨?_, fun all => ?_⟩
          · rw [takeWhile_cons_of_neg (by simp [reads])]
            simp
          · rw [all_cons, reads] at all
            cases all
      | true =>
          obtain ⟨⟨⟨owner, id⟩, key⟩, parsed⟩ := read_of_readable reads
          obtain rfl : owner = entry.1 := parseMasterKey_user parsed
          have first := mergeMasterKey_new viewer roundTrips parsed
            (noKeys entry mem_cons_self id)
          obtain ⟨stored, ends⟩ := ih (nodupKeys_cons.mp distinct).2 _
            (noKeys.putMaster distinct id (federation.format.encode key))
          rw [forM_cons, bind_of_ok _ first]
          refine ⟨?_, fun all => ?_⟩
          · rw [takeWhile_cons_of_pos reads]
            intro other member
            rcases mem_cons.mp member with here | later
            · subst here
              have stays : Keeps MastersStay (rest.forM (fun entry =>
                  mergeMasterKey federation viewer entry.1 entry.2)) :=
                Keeps.forM (fun later _ =>
                  mergeMasterKey_mastersStay later.1 later.2)
              refine stays _ other.1 ?_
              simp [Gathered.putMaster, KeyTables.putMaster]
            · exact stored other later
          · rw [all_cons, reads, Bool.true_and] at all
            exact ends all

def KeyTables.empty : KeyTables where
  keyidKey _ := none
  useridMasterkeyid _ := none
  useridSelfsigningkeyid _ := none
  useridUsersigningkeyid _ := none
  userdeviceidMetadata _ := []
  onetimekeyidOnetimekeys := []
  useridLastonetimekeyupdate _ := none
  counter := 0

def newQuery : Gathered KeysAnswer where
  tables := KeyTables.empty
  answer := empty

theorem localKeys_remote {input : DeviceKeysInput}
    (remote : ∀ entry ∈ input, userIsLocal federation.ourServer entry.1 = false)
    (gathered : Gathered KeysAnswer) :
    localKeys federation viewer input gathered = .ok () gathered := by
  induction input with
  | nil => rfl
  | cons entry rest ih =>
      unfold localKeys
      rw [forM_cons, remote entry mem_cons_self]
      exact ih (fun other member => remote other (mem_cons_of_mem _ member))

theorem extend_isSome {α : Type} {values : UserId → Option α}
    {added : UserMap α} {userId : UserId} (member : userId ∈ added) :
    (extend values added userId).isSome = true := by
  unfold extend
  rw [Option.isSome_or, AList.lookup_isSome.mpr member, Bool.true_or]

theorem ended_mergeKeys {server : ServerName} {response : FederationKeys}
    {gathered after : Gathered KeysAnswer}
    (masters : response.masterKeys.entries.forM (fun entry =>
      mergeMasterKey federation viewer entry.1 entry.2) gathered =
        .ok () after) :
    (ended (mergeKeys federation viewer server (.ok response)
      gathered)).answer = { after.answer with
        selfSigningKeys :=
          extend after.answer.selfSigningKeys response.selfSigningKeys
        deviceKeys := extend after.answer.deviceKeys response.deviceKeys } := by
  unfold mergeKeys
  simp only
  rw [bind_of_ok _ masters]
  rfl

theorem namesOwnUsers_of_untouched (roundTrips : RoundTrips federation.format)
    {server : ServerName} {response : FederationKeys}
    (untouched : Untouched of server newQuery
      (ended (mergeKeys federation viewer server (.ok response) newQuery))) :
    NamesOwnUsers federation.format server response := by
  obtain ⟨stored, ends⟩ := mergeMasterKeys_stores viewer roundTrips
    response.masterKeys.nodupKeys newQuery (fun _ _ _ => rfl)
  refine ⟨?_, ?_, ?_⟩
  · intro entry member
    by_contra foreign
    have kept := congrArg (fun rows => rows.2.1) (untouched entry.1 foreign).1
    have stays : MastersStay
        (ended (response.masterKeys.entries.forM (fun entry =>
          mergeMasterKey federation viewer entry.1 entry.2) newQuery))
        (ended (mergeKeys federation viewer server (.ok response)
          newQuery)) :=
      Keeps.ended_bind (fun _ => answering_mastersStay _) _ _
    have has := stays entry.1 (stored entry member)
    have missing : ((ended (mergeKeys federation viewer server (.ok response)
        newQuery)).tables.useridMasterkeyid entry.1) = none := kept
    rw [missing] at has
    cases has
  · intro all userId member
    by_contra foreign
    obtain ⟨after, masters⟩ := ends all
    have kept := congrArg (fun values => values.2.1)
      (untouched userId foreign).2
    rw [ended_mergeKeys masters] at kept
    have has : (extend after.answer.selfSigningKeys response.selfSigningKeys
        userId).isSome = true := extend_isSome member
    have missing : extend after.answer.selfSigningKeys
        response.selfSigningKeys userId = none := kept
    rw [missing] at has
    cases has
  · intro all userId member
    by_contra foreign
    obtain ⟨after, masters⟩ := ends all
    have kept := congrArg (fun values => values.2.2.2)
      (untouched userId foreign).2
    rw [ended_mergeKeys masters] at kept
    have has : (extend after.answer.deviceKeys response.deviceKeys
        userId).isSome = true := extend_isSome member
    have missing : extend after.answer.deviceKeys response.deviceKeys
        userId = none := kept
    rw [missing] at has
    cases has

theorem QueriesConfined.honest (roundTrips : RoundTrips federation.format)
    (confined : QueriesConfined federation) : HonestKeys federation := by
  intro server request response asked answers
  have begins : getKeysHelper federation ⟨none, fun _ => false, false⟩ request
      [] newQuery = .ok () newQuery :=
    bind_of_ok _ (localKeys_remote asked.not_local newQuery)
  have untouched := confined ⟨none, fun _ => false, false⟩ request [server]
    KeyTables.empty (by rw [asked.askedServers]) [] server [] newQuery rfl
    begins
  rw [asked.requestTo, answers] at untouched
  exact namesOwnUsers_of_untouched roundTrips untouched

def newClaim : Gathered ClaimAnswer where
  tables := KeyTables.empty
  answer := ClaimAnswer.empty

theorem tryCatch_pure_run {ε σ α : Type} (action : EStateM ε σ α)
    (fallback : α) (state : σ) :
    ∃ value after, tryCatch action (fun _ => pure fallback) state =
      .ok value after := by
  cases tried : action state with
  | ok value after =>
      refine ⟨value, after, ?_⟩
      simp only [tryCatch, tryCatchThe, MonadExceptOf.tryCatch,
        EStateM.tryCatch, tried]
  | error error middle =>
      refine ⟨fallback, middle, ?_⟩
      simp only [tryCatch, tryCatchThe, MonadExceptOf.tryCatch,
        EStateM.tryCatch, tried]
      rfl

theorem takeInto_run (userId : UserId) (devices : List (DeviceId × String))
    (container : OneTimeKeys) (tables : KeyTables) :
    ∃ taken after, devices.foldlM (takeInto userId) container tables =
      .ok taken after := by
  induction devices generalizing container tables with
  | nil => exact ⟨container, tables, rfl⟩
  | cons device rest ih =>
      obtain ⟨next, middle, first⟩ : ∃ next middle,
          takeInto userId container device tables = .ok next middle :=
        tryCatch_pure_run _ container tables
      obtain ⟨taken, after, later⟩ := ih next middle
      rw [foldlM_cons]
      exact ⟨taken, after, (bind_of_ok _ first).trans later⟩

theorem localClaims_run {server : ServerName} {input : OneTimeKeysInput}
    (users : ∀ entry ∈ input, serverName entry.1 = some server)
    (gathered : Gathered ClaimAnswer) :
    ∃ after, localClaims input gathered = .ok () after ∧
      ∀ userId, serverName userId ≠ some server →
        after.answer.oneTimeKeys userId =
          gathered.answer.oneTimeKeys userId := by
  induction input generalizing gathered with
  | nil => exact ⟨gathered, rfl, fun _ _ => rfl⟩
  | cons entry rest ih =>
      obtain ⟨container, tables, taken⟩ :=
        takeInto_run entry.1 entry.2 [] gathered.tables
      have first : (do
          let container ← onTables (localOneTimeKeys entry.1 entry.2)
          answering (fun answer => { answer with
            oneTimeKeys := update answer.oneTimeKeys entry.1
              (some container) }) : Gather ClaimAnswer Unit) gathered =
          .ok () { tables, answer := { gathered.answer with
            oneTimeKeys := update gathered.answer.oneTimeKeys
              entry.1 (some container) } } := by
        have takes : (onTables (localOneTimeKeys entry.1 entry.2) :
            Gather ClaimAnswer OneTimeKeys) gathered =
              .ok container { gathered with tables } := by
          unfold onTables localOneTimeKeys
          rw [taken]
        rw [bind_of_ok _ takes]
        rfl
      obtain ⟨after, later, kept⟩ := ih
        (fun other member => users other (mem_cons_of_mem _ member)) _
      refine ⟨after, (bind_of_ok _ first).trans later, ?_⟩
      intro userId foreign
      rw [kept userId foreign]
      refine update_of_ne ?_ _ _
      rintro rfl
      exact foreign (users entry mem_cons_self)

theorem ClaimsConfined.honest (confined : ClaimsConfined federation) :
    HonestClaims federation := by
  intro server request response asked answers userId member
  by_contra foreign
  obtain ⟨reached, begins, kept⟩ := localClaims_run asked.users newClaim
  have helped : claimKeysHelper federation request [] newClaim =
      .ok () reached := bind_of_ok _ begins
  have untouched := (confined request [server] KeyTables.empty
    (by rw [asked.askedServers]) [] server [] reached rfl helped userId
    foreign).2
  rw [asked.requestTo, answers] at untouched
  have has : (extend reached.answer.oneTimeKeys response userId).isSome =
      true := extend_isSome member
  have missing : extend reached.answer.oneTimeKeys response userId = none :=
    untouched.trans (kept userId foreign)
  rw [missing] at has
  cases has

end

/-- The responses of other servers touch only their own users, in every query
and in every claim, if and only if they name no others as far as they are
merged. -/
theorem remoteKeys_confined_iff {federation : Federation}
    (roundTrips : RoundTrips federation.format) :
    QueriesConfined federation ∧ ClaimsConfined federation ↔
      HonestKeys federation ∧ HonestClaims federation := by
  constructor
  · rintro ⟨queries, claims⟩
    exact ⟨queries.honest roundTrips, claims.honest⟩
  · rintro ⟨keys, claims⟩
    exact ⟨keys.confined, claims.confined⟩

def encodeStrings (entries : List (String × String)) : Json :=
  .obj (entries.map (fun entry => (entry.1, .str entry.2)))

def decodeStrings (value : Json) : Option (List (String × String)) := do
  let fields ← value.asObject
  fields.mapM (fun field => field.2.asStr.map (fun text => (field.1, text)))

def encodeKey (key : CrossSigningKey) : Json :=
  .obj [("user_id", .str key.userId), ("usage", .arr (key.usage.map .str)),
    ("keys", encodeStrings key.keys), ("signatures", .obj key.signatures)]

def decodeKey (value : Json) : Option CrossSigningKey := do
  let fields ← value.asObject
  let userId ← (← fields.lookup "user_id").asStr
  let usage ← (← (← fields.lookup "usage").asArray).mapM Json.asStr
  let keys ← decodeStrings (← fields.lookup "keys")
  let signatures ← (← fields.lookup "signatures").asObject
  return { userId, usage, keys, signatures }

def plainFormat : Format where
  validUserId text := (serverName text).isSome
  decode value := (decodeKey value).elim (.error "invalid key") .ok
  encode := encodeKey

theorem mapM_asStr (texts : List String) :
    (texts.map Json.str).mapM Json.asStr = some texts := by
  induction texts with
  | nil => rfl
  | cons text rest ih =>
      rw [map_cons, mapM_cons, ih]
      rfl

theorem decodeStrings_encodeStrings (entries : List (String × String)) :
    decodeStrings (encodeStrings entries) = some entries := by
  change (entries.map (fun entry => (entry.1, Json.str entry.2))).mapM
    (fun field => field.2.asStr.map (fun text => (field.1, text))) =
      some entries
  induction entries with
  | nil => rfl
  | cons entry rest ih =>
      rw [map_cons, mapM_cons, ih]
      rfl

theorem plainFormat_roundTrips : RoundTrips plainFormat := by
  intro key
  have decoded : decodeKey (encodeKey key) = some key := by
    change ((key.usage.map Json.str).mapM Json.asStr >>= fun usage =>
      decodeStrings (encodeStrings key.keys) >>= fun keys =>
        some { key with usage, keys }) = some key
    rw [mapM_asStr, decodeStrings_encodeStrings]
    rfl
  simp [plainFormat, decoded]

namespace OneKey

def masterKey (owner : UserId) : Json := encodeKey {
    userId := owner
    usage := ["master"]
    keys := [("ed25519:new", "new")]
    signatures := [] }

def federation (owner : UserId) : Federation where
  ourServer := "h"
  format := plainFormat
  getKeys server _ :=
    if server = "e" then
      .ok {
        masterKeys := AList.singleton owner (masterKey owner)
        selfSigningKeys := ∅
        deviceKeys := ∅ }
    else .error "connection refused"
  claimKeys _ _ := .ok ∅

theorem own_confined :
    RoundTrips plainFormat ∧ QueriesConfined (federation "@eve:e") ∧
      ClaimsConfined (federation "@eve:e") := by
  refine ⟨plainFormat_roundTrips,
    (remoteKeys_confined_iff plainFormat_roundTrips).mpr ⟨?_, ?_⟩⟩
  · intro server request response asked answers
    simp only [federation] at answers
    split at answers
    next same =>
      subst same
      cases answers
      refine ⟨fun entry member => ?_, fun _ userId member => ?_,
        fun _ userId member => ?_⟩
      · have listed := (takeWhile_sublist _).subset member
        rw [mem_singleton.mp listed]
        rfl
      · cases member
      · cases member
    · cases answers
  · intro server request response asked answers
    cases answers
    intro userId member
    cases member

def bobsTables : KeyTables :=
  KeyTables.empty.putMaster "@bob:h" ("@bob:h", "old")
    (encodeKey ⟨"@bob:h", ["master"], [("ed25519:old", "old")], []⟩)

/-- Alice asks for the keys of Eve, and the server of Eve gives Bob a new
identity. -/
theorem bob_replaced :
    askedServers "h" [("@eve:e", ([] : List DeviceId))] = ["e"] ∧
    bobsTables.useridMasterkeyid "@bob:h" = some ("@bob:h", "old") ∧
    (ended (getKeysHelper (federation "@bob:h")
        ⟨some "@alice:h", fun _ => false, true⟩ [("@eve:e", [])] ["e"]
        { tables := bobsTables,
          answer := empty })).tables.useridMasterkeyid "@bob:h" =
      some ("@bob:h", "new") ∧
    ¬ ∀ federation : Federation, RoundTrips federation.format →
      QueriesConfined federation ∧ ClaimsConfined federation := by
  refine ⟨rfl, rfl, rfl, fun confined => ?_⟩
  have foreign : serverName "@bob:h" ≠ some "e" := by decide
  have untouched := (confined (federation "@bob:h") plainFormat_roundTrips).1
    ⟨some "@alice:h", fun _ => false, true⟩ [("@eve:e", [])] ["e"] bobsTables
    (.refl _) [] "e" [] _ rfl rfl "@bob:h" foreign
  have same : some ("@bob:h", "new") = some ("@bob:h", "old") :=
    congrArg (fun rows => rows.2.1) untouched.1
  exact absurd same (by decide)

end OneKey

end ArcanaServer.Keys
