import ArcanaServer.KeyBackups.Service
import ArcanaServer.Library.Decimal
import ArcanaServer.Library.Ordered
import ArcanaServer.Library.Trace

namespace ArcanaServer.KeyBackups

open Library Database Store UInt64
open Sending (Byte separator)
open List SortedTable

/-! The latest backup of a user, which is the last one in the order of the
keys. -/

def charByte (char : Char) : Byte := (UInt8.ofNat char.toNat).toFin

theorem charByte_increasing : Increasing charByte := by
  have digits : ∀ one other : Fin 10, charByte (Nat.digitChar one) <
      charByte (Nat.digitChar other) ↔ one < other := by
    decide
  intro one other isDigit otherDigit
  exact digits ⟨one, isDigit⟩ ⟨other, otherDigit⟩

theorem utf8_digitChar : ∀ digit : Fin 10,
    (String.utf8EncodeChar (Nat.digitChar digit)).map UInt8.toFin =
      [charByte (Nat.digitChar digit)] := by
  decide

theorem strBytes_toString (number : Nat) :
    strBytes (toString number) = decimal charByte number := by
  unfold strBytes
  rw [Nat.toString_eq_repr, Nat.toList_repr]
  induction number using Nat.strongRecOn with
  | ind number ih =>
      by_cases small : number < 10
      · rw [Nat.toDigits_of_lt_base small, decimal_of_lt small,
          flatMap_singleton]
        exact utf8_digitChar ⟨number, small⟩
      · have large := Nat.le_of_not_lt small
        rw [Nat.toDigits_of_base_le (by decide) large, decimal_of_le large,
          flatMap_append, map_append, ih (number / 10) (by omega),
          flatMap_singleton]
        congr 1
        exact utf8_digitChar ⟨number % 10, Nat.mod_lt number (by decide)⟩

structure Created (reader : Reader) (Algorithm : Type) where
  userId : reader.UserId
  number : Nat
  algorithm : Algorithm
  deriving DecidableEq

namespace Created

variable {reader : Reader} {Algorithm : Type}

variable (created : Created reader Algorithm)

def version : String :=
  toString created.number

def key : Key :=
  textKey [created.userId, created.version]

theorem key_eq :
    created.key = strBytes created.userId.val ++
      separator :: strBytes created.version := by
  simp [key, textKey, joined, trailing, Component.content]

def Named (userId : reader.UserId) (version : String) : Prop :=
  created.userId = userId ∧ created.version = version

instance (created : Created reader Algorithm) (userId : reader.UserId)
    (version : String) : Decidable (created.Named userId version) :=
  inferInstanceAs (Decidable (_ ∧ _))

theorem key_eq_iff {created : Created reader Algorithm}
    {userId : reader.UserId} {version : String} :
    created.key = textKey [userId.val, version] ↔
      created.Named userId version := by
  constructor
  · intro same
    have texts : [created.userId.val, created.version] =
        [userId.val, version] := textKey_inj rfl same
    obtain ⟨users, later⟩ := List.cons.inj texts
    exact ⟨Subtype.ext users, (List.cons.inj later).1⟩
  · intro named
    unfold key
    rw [named.1, named.2]

theorem read_key :
    readBackupId reader created.key =
      some (created.userId, created.version) := by
  have whole : fromSlice reader.debug [.str, .str] created.key =
      .ok [.component (.str created.userId),
        .component (.str created.version)] :=
    fromSlice_textKey reader.debug
      [(.str, created.userId.val), (.str, created.version)] (by simp) (by simp)
  unfold readBackupId
  rw [whole]
  simp only [parseChecked, dif_pos created.userId.property, Option.map_some]

end Created

inductive VersionCall (reader : Reader) (Algorithm : Type) where
  | createBackup (userId : reader.UserId) (backupMetadata : Algorithm)
  | deleteBackup (userId : reader.UserId) (version : String)
  | nextCount

variable {reader : Reader} {Algorithm Data : Type}

def Store.versionStep (store : Store Algorithm Data) :
    VersionCall reader Algorithm → Store Algorithm Data × Option String
  | .createBackup userId backupMetadata =>
      let created := store.createBackup userId backupMetadata
      (created.2, some created.1)
  | .deleteBackup userId version => (store.deleteBackup userId version, none)
  | .nextCount => (store.nextCount.2, none)

abbrev Existing (reader : Reader) (Algorithm : Type) :=
  List (Created reader Algorithm)

namespace Existing

variable (existing : Existing reader Algorithm)

def after (drawn : Nat) :
    VersionCall reader Algorithm → Existing reader Algorithm
  | .createBackup userId backupMetadata =>
      existing.filter (fun older => ¬ older.Named userId (toString drawn)) ++
        [⟨userId, drawn, backupMetadata⟩]
  | .deleteBackup userId version =>
      existing.filter fun older => ¬ older.Named userId version
  | .nextCount => existing

def ofHistory (history : List (Entry (Store Algorithm Data)
    (VersionCall reader Algorithm) (Option String))) :
    Existing reader Algorithm :=
  history.foldl (fun existing entry =>
    existing.after entry.before.nextCount.1 entry.input) []

def newest (userId : reader.UserId) : Option (Created reader Algorithm) :=
  (existing.filter fun created => created.userId = userId).getLast?

def DigitsAgree (userId : reader.UserId) : Prop :=
  ∀ newest ∈ existing.newest userId, ∀ older ∈ existing,
    older.userId = userId → older.number ≤
      newest.number / 10 ^ (places newest.number - places older.number)

end Existing

variable (store : Store Algorithm Data) (existing : Existing reader Algorithm)

def Store.GivesNewest (userId : reader.UserId) : Prop :=
  match existing.newest userId with
  | some newest =>
      store.getLatestBackupVersion userId = .ok newest.version ∧
        store.getLatestBackup userId = .ok (newest.version, newest.algorithm)
  | none =>
      store.getLatestBackupVersion userId =
          .error (.notFound "No backup versions found") ∧
        store.getLatestBackup userId = .error (.notFound "No backup found")

/-- The rows are the existing backups, and those of a user stand in the order
of their numbers, which the counter has drawn. -/
structure Kept : Prop where
  represents : ∀ key algorithm, (key, algorithm) ∈ store.backupidAlgorithm ↔
    ∃ created ∈ existing, created.key = key ∧ created.algorithm = algorithm
  ordered : existing.Pairwise fun older later =>
    older.userId = later.userId → older.number < later.number
  drawn : ∀ created ∈ existing, created.number ≤ store.counter

namespace Kept

section

variable {store : Store Algorithm Data}
  {existing : Existing reader Algorithm} {userId : reader.UserId}

/-- No version stands behind the key that the scan starts at. -/
theorem not_last_lt_key (created : Created reader Algorithm)
    (isUser : created.userId = userId) :
    ¬ joined [.str userId.val, .u64 (ofNat u64Max)] < created.key := by
  have last : joined [.str userId.val, .u64 (ofNat u64Max)] =
      strBytes userId.val ++
        separator :: separator :: (u64Bytes (ofNat u64Max)).tail := by
    have bytes : u64Bytes (ofNat u64Max) =
        separator :: (u64Bytes (ofNat u64Max)).tail := by
      decide
    rw [← bytes]
    simp [joined, trailing, Component.content]
  rw [last, created.key_eq, isUser, append_lt_append_left_iff]
  intro less
  have later := (cons_lt_cons_iff.mp less).resolve_left (lt_irrefl _)
  cases bytes : strBytes created.version with
  | nil =>
      rw [bytes] at later
      exact not_lt_nil _ later.2
  | cons byte rest =>
      have member : byte ∈ strBytes created.version := by
        rw [bytes]
        exact mem_cons_self
      rw [bytes, cons_lt_cons_iff] at later
      rcases later.2 with above | same
      · exact absurd above (not_lt.mpr (Fin.le_last byte))
      · exact separator_notMem_strBytes created.version (same.1 ▸ member)

theorem textPrefix_key_iff {created : Created reader Algorithm} :
    textPrefix [userId.val] <+: created.key ↔ created.userId = userId := by
  have lengths : [userId.val].length = [created.userId.val].length := rfl
  have parts : textPrefix [userId.val] <+:
      textKey ([created.userId.val] ++ [created.version]) ↔ _ :=
    textPrefix_prefix_iff lengths (cons_ne_nil _ _)
  refine parts.trans ?_
  rw [List.cons.injEq, Subtype.val_inj, eq_comm]
  exact and_iff_left rfl

def readBackup (reader : Reader) (row : Key × Algorithm) :
    Option ((reader.UserId × String) × Algorithm) :=
  (readBackupId reader row.1).map (·, row.2)

theorem readBackup_key (created : Created reader Algorithm) :
    readBackup reader (created.key, created.algorithm) =
      some ((created.userId, created.version), created.algorithm) := by
  unfold readBackup
  rw [created.read_key]
  rfl

theorem revBackupsFrom_eq (kept : Kept store existing)
    (userId : reader.UserId) :
    store.revBackupsFrom userId =
      ((store.backupidAlgorithm.rows.filter fun row =>
        !decide (joined [.str userId.val, .u64 (ofNat u64Max)] <
          row.1) && (textPrefix [userId.val]).isPrefixOf
            row.1).reverse).filterMap (readBackup reader) := by
  have starts : textPrefix [userId.val] <+:
      joined [.str userId.val, .u64 (ofNat u64Max)] :=
    (textPrefix_joined_iff rfl (cons_ne_nil _ _)).mpr rfl
  rw [← scanPrefixRev_eq_filter _ starts]
  refine takeWhile_filterMap_of_reads ?_
  rintro ⟨key, algorithm⟩ member
  have stored := mem_reverse.mp ((dropWhile_sublist _).subset member)
  obtain ⟨created, _, isKey, isAlgorithm⟩ :=
    (kept.represents key algorithm).mp stored
  subst isKey
  subst isAlgorithm
  refine ⟨_, readBackup_key created, Bool.eq_iff_iff.mpr ?_⟩
  rw [decide_eq_true_iff, isPrefixOf_iff_prefix]
  exact textPrefix_key_iff.symm

theorem mem_revBackupsFrom_iff (kept : Kept store existing)
    {backup : (reader.UserId × String) × Algorithm} :
    backup ∈ store.revBackupsFrom userId ↔
      ∃ created ∈ existing, created.userId = userId ∧
        backup = ((created.userId, created.version), created.algorithm) := by
  rw [kept.revBackupsFrom_eq]
  simp only [mem_filterMap, mem_reverse, mem_filter,
    Bool.and_eq_true, Bool.not_eq_true', decide_eq_false_iff_not,
    isPrefixOf_iff_prefix]
  constructor
  · rintro ⟨⟨key, algorithm⟩, ⟨stored, _, starts⟩, isRead⟩
    obtain ⟨created, exists_, isKey, isAlgorithm⟩ :=
      (kept.represents key algorithm).mp stored
    subst isKey
    subst isAlgorithm
    rw [readBackup_key] at isRead
    exact ⟨created, exists_, textPrefix_key_iff.mp starts,
      (Option.some.inj isRead).symm⟩
  · rintro ⟨created, exists_, isUser, isBackup⟩
    refine ⟨(created.key, created.algorithm), ⟨?_, ?_, ?_⟩, ?_⟩
    · exact (kept.represents _ _).mpr ⟨created, exists_, rfl, rfl⟩
    · exact not_last_lt_key created isUser
    · exact textPrefix_key_iff.mpr isUser
    · rw [isBackup]
      exact readBackup_key created

theorem revBackupsFrom_ordered (kept : Kept store existing) :
    (store.revBackupsFrom userId).Pairwise fun backup later =>
      strBytes later.1.2 < strBytes backup.1.2 := by
  rw [kept.revBackupsFrom_eq, pairwise_filterMap, pairwise_reverse]
  refine (store.backupidAlgorithm.sorted.filter _).imp_of_mem ?_
  rintro ⟨key, algorithm⟩ ⟨laterKey, laterAlgorithm⟩ member laterMember less
    later isLater backup isBackup
  obtain ⟨stored, within⟩ := mem_filter.mp member
  obtain ⟨laterStored, laterWithin⟩ := mem_filter.mp laterMember
  obtain ⟨created, _, isKey, isAlgorithm⟩ :=
    (kept.represents key algorithm).mp stored
  obtain ⟨laterCreated, _, isLaterKey, isLaterAlgorithm⟩ :=
    (kept.represents laterKey laterAlgorithm).mp laterStored
  subst isKey isAlgorithm isLaterKey isLaterAlgorithm
  rw [readBackup_key] at isBackup isLater
  cases isBackup
  cases isLater
  have isUser := textPrefix_key_iff.mp ( isPrefixOf_iff_prefix.mp
    (Bool.and_eq_true_iff.mp within).2)
  have laterUser := textPrefix_key_iff.mp ( isPrefixOf_iff_prefix.mp
    (Bool.and_eq_true_iff.mp laterWithin).2)
  dsimp only at less
  rw [created.key_eq, laterCreated.key_eq, isUser, laterUser,
    append_lt_append_left_iff, cons_lt_cons_iff] at less
  exact (less.resolve_left (lt_irrefl _)).2

theorem newest_eq_some_iff (kept : Kept store existing)
    {newest : Created reader Algorithm} :
    existing.newest userId = some newest ↔
      (newest ∈ existing ∧ newest.userId = userId) ∧
        ∀ older ∈ existing, older.userId = userId → older ≠ newest →
          older.number < newest.number := by
  have ordered : (existing.filter fun created =>
      created.userId = userId).reverse.Pairwise
        fun later older => older.number < later.number := by
    rw [pairwise_reverse]
    refine (kept.ordered.filter _).imp_of_mem ?_
    intro older later member laterMember less
    have isUser := of_decide_eq_true (mem_filter.mp member).2
    have laterUser := of_decide_eq_true (mem_filter.mp laterMember).2
    exact less (isUser.trans laterUser.symm)
  unfold Existing.newest
  rw [← List.head?_reverse, head?_eq_some_iff_of_pairwise
    (fun _ _ => Nat.lt_asymm) ordered]
  simp only [mem_reverse, mem_filter, decide_eq_true_eq, and_imp]

theorem newest_eq_none_iff : existing.newest userId = none ↔
    ∀ created ∈ existing, created.userId ≠ userId := by
  unfold Existing.newest
  rw [getLast?_eq_none_iff, filter_eq_nil_iff]
  simp only [decide_eq_true_eq]

/-- The order of the bytes of two versions, told by their numbers. -/
theorem version_lt_iff {older newer : Created reader Algorithm}
    (less : older.number < newer.number) :
    strBytes older.version < strBytes newer.version ↔
      older.number ≤ newer.number /
        10 ^ (places newer.number - places older.number) := by
  unfold Created.version
  rw [strBytes_toString, strBytes_toString]
  exact decimal_lt_iff charByte_increasing less

theorem givesNewest_iff (kept : Kept store existing) (userId : reader.UserId) :
    store.GivesNewest existing userId ↔ existing.DigitsAgree userId := by
  unfold Store.GivesNewest Existing.DigitsAgree getLatestBackupVersion
    getLatestBackup
  cases isNewest : existing.newest userId with
  | none =>
      have nothing : store.revBackupsFrom userId = [] := by
        refine eq_nil_iff_forall_not_mem.mpr fun backup member => ?_
        obtain ⟨created, exists_, isUser, _⟩ :=
          kept.mem_revBackupsFrom_iff.mp member
        exact newest_eq_none_iff.mp isNewest created exists_ isUser
      rw [nothing]
      refine iff_of_true ⟨rfl, rfl⟩ ?_
      intro newest member
      cases member
  | some newest =>
      obtain ⟨⟨exists_, isUser⟩, greatest⟩ :=
        kept.newest_eq_some_iff.mp isNewest
      have head := fun first => @head?_eq_some_iff_of_pairwise
        ((reader.UserId × String) × Algorithm)
        (fun backup later => strBytes later.1.2 < strBytes backup.1.2)
        (fun _ _ => lt_asymm) _ (@revBackupsFrom_ordered _ _ _ _ _ userId
          kept) first
      constructor
      · intro gives last isLast older olderExists olderUser
        cases isLast
        by_cases same : older = newest
        · rw [same, Nat.sub_self, Nat.pow_zero, Nat.div_one]
        · have less := greatest older olderExists olderUser same
          refine (version_lt_iff less).mp ?_
          cases first : (store.revBackupsFrom userId).head? with
          | none =>
              rw [first] at gives
              cases gives.1
          | some backup =>
              rw [first] at gives
              have version := Except.ok.inj gives.1
              obtain ⟨_, leads⟩ := (head backup).mp first
              rw [← version]
              refine leads ((older.userId, older.version), older.algorithm)
                (kept.mem_revBackupsFrom_iff.mpr
                  ⟨older, olderExists, olderUser, rfl⟩) ?_
              intro equal
              have versions : older.version = newest.version :=
                (congrArg (·.1.2) equal).trans version
              exact less.ne (decimal_inj charByte_increasing (by
                rw [← strBytes_toString, ← strBytes_toString]
                exact congrArg strBytes versions))
      · intro agree
        have first := (head ((newest.userId, newest.version),
          newest.algorithm)).mpr ⟨kept.mem_revBackupsFrom_iff.mpr
            ⟨newest, exists_, isUser, rfl⟩, ?_⟩
        · rw [first]
          exact ⟨rfl, rfl⟩
        · intro other member differs
          obtain ⟨older, olderExists, olderUser, isOther⟩ :=
            kept.mem_revBackupsFrom_iff.mp member
          have notSame : older ≠ newest := by
            intro same
            exact differs (same ▸ isOther)
          rw [isOther]
          exact (version_lt_iff (greatest older olderExists olderUser
            notSame)).mpr (agree newest rfl older olderExists olderUser)

end

section

variable {store : Store Algorithm Data}
  {existing : Existing reader Algorithm}

theorem counter_le_nextCount (store : Store Algorithm Data) :
    store.counter ≤ store.nextCount.1 :=
  le_nextCounter _

theorem delete (kept : Kept store existing) (userId : reader.UserId)
    (version : String) :
    Kept (store.deleteBackup userId version)
      (existing.filter fun older => ¬ older.Named userId version) where
  represents := by
    intro key algorithm
    unfold deleteBackup
    dsimp only
    rw [mem_erase, kept.represents]
    constructor
    · rintro ⟨⟨created, exists_, isKey, isAlgorithm⟩, differs⟩
      refine ⟨created, mem_filter.mpr ⟨exists_, decide_eq_true ?_⟩,
        isKey, isAlgorithm⟩
      intro named
      exact differs (isKey.symm.trans (Created.key_eq_iff.mpr named))
    · rintro ⟨created, member, isKey, isAlgorithm⟩
      obtain ⟨exists_, notNamed⟩ := mem_filter.mp member
      refine ⟨⟨created, exists_, isKey, isAlgorithm⟩, ?_⟩
      intro same
      exact of_decide_eq_true notNamed
        (Created.key_eq_iff.mp (isKey.trans same))
  ordered := kept.ordered.filter _
  drawn := fun created member =>
    kept.drawn created (mem_filter.mp member).1

theorem create (kept : Kept store existing) (userId : reader.UserId)
    (backupMetadata : Algorithm) :
    Kept (store.createBackup userId backupMetadata).2
      (existing.after store.nextCount.1
        (.createBackup userId backupMetadata)) where
  represents := by
    intro key algorithm
    let new : Created reader Algorithm :=
      ⟨userId, store.nextCount.1, backupMetadata⟩
    change (key, algorithm) ∈ store.backupidAlgorithm.put new.key
      backupMetadata ↔ ∃ created ∈ existing.filter
        (fun older => ¬ older.Named userId new.version) ++ [new], _
    rw [mem_put, kept.represents]
    constructor
    · rintro (isNew | ⟨⟨created, exists_, isKey, isAlgorithm⟩, differs⟩)
      · obtain ⟨isKey, isAlgorithm⟩ := Prod.mk.inj isNew
        exact ⟨new, mem_append_right _ mem_cons_self, isKey.symm,
          isAlgorithm.symm⟩
      · refine ⟨created, mem_append_left _ (mem_filter.mpr
          ⟨exists_, decide_eq_true ?_⟩), isKey, isAlgorithm⟩
        intro named
        exact differs (isKey.symm.trans (Created.key_eq_iff.mpr named))
    · rintro ⟨created, member, isKey, isAlgorithm⟩
      rcases mem_append.mp member with older | isNew
      · obtain ⟨exists_, notNamed⟩ := mem_filter.mp older
        refine .inr ⟨⟨created, exists_, isKey, isAlgorithm⟩, ?_⟩
        intro same
        exact of_decide_eq_true notNamed
          (Created.key_eq_iff.mp (isKey.trans same))
      · rw [mem_singleton.mp isNew] at isKey isAlgorithm
        exact .inl (Prod.ext isKey.symm isAlgorithm.symm)
  ordered := by
    refine pairwise_append.mpr
      ⟨kept.ordered.filter _, pairwise_singleton _ _, ?_⟩
    intro older member new isNew users
    rw [mem_singleton.mp isNew] at users ⊢
    obtain ⟨exists_, notNamed⟩ := mem_filter.mp member
    refine Nat.lt_of_le_of_ne
      ((kept.drawn older exists_).trans (counter_le_nextCount store)) ?_
    intro numbers
    exact of_decide_eq_true notNamed ⟨users, congrArg toString numbers⟩
  drawn := by
    have later : store.nextCount.1 ≤
        (store.createBackup userId backupMetadata).2.counter :=
      counter_le_nextCount store.nextCount.2
    intro created member
    rcases mem_append.mp member with older | isNew
    · exact (kept.drawn created (mem_filter.mp older).1).trans
        ((counter_le_nextCount store).trans later)
    · rw [mem_singleton.mp isNew]
      exact later

theorem step (kept : Kept store existing)
    (call : VersionCall reader Algorithm) :
    Kept (store.versionStep call).1
      (existing.after store.nextCount.1 call) := by
  cases call with
  | createBackup userId backupMetadata =>
      exact kept.create userId backupMetadata
  | deleteBackup userId version => exact kept.delete userId version
  | nextCount =>
      exact ⟨kept.represents, kept.ordered, fun created exists_ =>
        (kept.drawn created exists_).trans (counter_le_nextCount store)⟩

theorem empty (counter : Nat) : Kept (.empty counter : Store Algorithm Data)
    ([] : Existing reader Algorithm) where
  represents := by
    intro key algorithm
    refine iff_of_false not_mem_empty ?_
    rintro ⟨created, member, _⟩
    cases member
  ordered := .nil
  drawn := fun _ member => absurd member not_mem_nil

theorem of_reaches {counter : Nat} {history : List (Entry (Store Algorithm Data)
      (VersionCall reader Algorithm) (Option String))}
    (reached : Reaches versionStep (.empty counter) history store) :
    Kept store (Existing.ofHistory history) := by
  induction reached with
  | start => exact empty counter
  | next call _ ih =>
      unfold Existing.ofHistory
      rw [foldl_append]
      exact ih.step call

end

end Kept

/-- After every run, whatever the counter has drawn in between, the queries
give the backup of a user that was created last just where the order of the
digits agrees with that of the numbers. -/
theorem latestBackup_newest_iff (Data : Type) (counter : Nat)
    (calls : List (VersionCall reader Algorithm)) (userId : reader.UserId) :
    (run versionStep (.empty counter : Store Algorithm Data)
        calls).2.GivesNewest
      (Existing.ofHistory (run versionStep
        (.empty counter : Store Algorithm Data) calls).1) userId ↔
      (Existing.ofHistory (run versionStep
        (.empty counter : Store Algorithm Data) calls).1).DigitsAgree userId :=
  (Kept.of_reaches (reaches_run _ _ calls)).givesNewest_iff userId

def carol : plainReader.UserId := ⟨"@carol:here", by decide⟩

def shorterVersion : List (VersionCall plainReader String) :=
  [.createBackup carol "first", .createBackup carol "second"]

theorem shorterVersion_latest :
    ¬ (run versionStep (.empty 8 : Store String Unit)
        shorterVersion).2.GivesNewest
      (Existing.ofHistory (run versionStep
        (.empty 8 : Store String Unit) shorterVersion).1) carol := by
  rw [(Kept.of_reaches (reaches_run _ _ shorterVersion)).givesNewest_iff]
  intro agree
  have digits := agree ⟨carol, 11, "second"⟩ rfl ⟨carol, 9, "first"⟩
    (by decide) rfl
  exact absurd digits (by decide)

end ArcanaServer.KeyBackups
