import DjangoBoilerplate.ApiKey
import DjangoBoilerplate.Json
import DjangoBoilerplate.RowLock

/-!
# No lost update

`BaseService.update`, the soft `BaseService.delete`, `APIKeyService.revoke` and the
`last_used_at` stamp of `APIKeyAuthentication`, all on one `APIKey` row. The first three
read the row under `select_for_update()`; `update` then writes every column of the
instance back, where `delete` and `revoke` name the columns they save. The stamp is a
single `UPDATE`.

Each call is a transaction of `RowLock`, so the runs are serializable. A column keeps what
a call wrote to it until a later call writes that column (`no_lost_update`).
-/

namespace DjangoBoilerplate

namespace ApiKey

namespace Updates

/-! ## The columns -/

/-- A row with its `notes`, which only `update` can write. -/
structure Stored : Type extends Row where
  /-- `notes`, a JSON value -/
  notes : Option Value

/-- The columns of the table. -/
inductive Column : Type where
  | pk | user | name | keyPrefix | secret | lastUsedAt | revokedAt | isActive | createdBy
  | updatedBy | createdAt | updatedAt | notes
  deriving DecidableEq

/-- What a column holds. -/
def Column.Cell : Column → Type
  | .pk => ℕ
  | .user => ℕ
  | .name => Str
  | .keyPrefix => Str
  | .secret => Str
  | .lastUsedAt => Option ℕ
  | .revokedAt => Option ℕ
  | .isActive => Bool
  | .createdBy => Option ℕ
  | .updatedBy => Option ℕ
  | .createdAt => ℕ
  | .updatedAt => ℕ
  | .notes => Option Value

/-- A column of a row. -/
def Stored.get (r : Stored) : (c : Column) → c.Cell
  | .pk => r.pk
  | .user => r.user
  | .name => r.name
  | .keyPrefix => r.keyPrefix
  | .secret => r.secret
  | .lastUsedAt => r.lastUsedAt
  | .revokedAt => r.revokedAt
  | .isActive => r.isActive
  | .createdBy => r.createdBy
  | .updatedBy => r.updatedBy
  | .createdAt => r.createdAt
  | .updatedAt => r.updatedAt
  | .notes => r.notes

/-- The row with another value in a column. -/
def Stored.set (r : Stored) : (c : Column) → c.Cell → Stored
  | .pk, v => { r with pk := v }
  | .user, v => { r with user := v }
  | .name, v => { r with name := v }
  | .keyPrefix, v => { r with keyPrefix := v }
  | .secret, v => { r with secret := v }
  | .lastUsedAt, v => { r with lastUsedAt := v }
  | .revokedAt, v => { r with revokedAt := v }
  | .isActive, v => { r with isActive := v }
  | .createdBy, v => { r with createdBy := v }
  | .updatedBy, v => { r with updatedBy := v }
  | .createdAt, v => { r with createdAt := v }
  | .updatedAt, v => { r with updatedAt := v }
  | .notes, v => { r with notes := v }

@[simp]
theorem get_set_self (r : Stored) (c : Column) (v : c.Cell) : (r.set c v).get c = v := by
  cases c <;> rfl

theorem get_set_of_ne (r : Stored) {c d : Column} (v : c.Cell) (h : d ≠ c) :
    (r.set c v).get d = r.get d := by
  cases c <;> cases d <;> first | rfl | exact absurd rfl h

/-! ## The calls -/

/-- An entry of `data`. -/
inductive Setting : Type where
  /-- a column -/
  | column (c : Column) (v : c.Cell) : Setting
  /-- a name that is no column: an attribute that is not saved -/
  | unsaved : Setting
  /-- a value the column does not take: `setattr` or `full_clean()` raises -/
  | refused : Setting

/-- `setattr(instance, field, value)`. -/
def Stored.setattr (r : Stored) : Setting → Stored
  | .column c v => r.set c v
  | _ => r

/-- Does the entry raise? -/
def Setting.raises : Setting → Bool
  | .refused => true
  | _ => false

/-- A call on the row. -/
inductive Call : Type where
  /-- `update(pk, data, user, active_only)` -/
  | update (data : List Setting) (user : Option ℕ) (activeOnly : Bool) : Call
  /-- `delete(pk, active_only=..., user=...)`, soft -/
  | delete (user : Option ℕ) (activeOnly : Bool) : Call
  /-- `revoke(pk, user=...)` -/
  | revoke (user : Option ℕ) : Call
  /-- the `last_used_at` stamp -/
  | stamp : Call

/-- What a call returns. -/
inductive Reply : Type where
  /-- `update`: the instance, or `None` -/
  | updated (instance? : Option Stored) : Reply
  /-- `update` with another `id` in its data: it saved another row -/
  | moved (instance? : Stored) : Reply
  /-- `delete` -/
  | deleted (found : Bool) : Reply
  /-- `revoke`: `(revoked_now, already_revoked)` -/
  | revoked (now already : Bool) : Reply
  /-- the stamp -/
  | stamped : Reply
  /-- it raised, and the transaction rolled back -/
  | raised : Reply

/-- Did the call save the row? -/
def Reply.saved : Reply → Bool
  | .updated instance? => instance?.isSome
  | .deleted found => found
  | .revoked now _ => now
  | .stamped => true
  | .moved _ => false
  | .raised => false

/-- `updated_by = user`, if there is one. -/
def Stored.stampUser (r : Stored) : Option ℕ → Stored
  | none => r
  | some u => r.set .updatedBy (some u)

/-- The instance `update` saves: the row as read, the entries of `data` in order, then the
audit stamp. -/
def updated (data : List Setting) (user : Option ℕ) (r : Stored) : Stored :=
  (data.foldl Stored.setattr r).stampUser user

/-- `update_fields` of the soft delete. -/
def deletedFields : Option ℕ → List Column
  | none => [.isActive, .updatedAt]
  | some _ => [.isActive, .updatedAt, .updatedBy]

/-- `save(update_fields=...)`: these columns of the instance are written over the row. -/
def writeFields (fields : List Column) (inst r : Stored) : Stored :=
  fields.foldl (fun x c => x.set c (inst.get c)) r

/-- `auto_now`, as `save()` sets it. -/
def Stored.touch (r : Stored) (now : ℕ) : Stored := r.set .updatedAt now

/-- `save()` of an instance, with the columns it names. `valid` is `full_clean()` and the
constraints of the table. They also ask other rows, so the answer depends on the time. -/
def save (valid : ℕ → Stored → Bool) (now : ℕ) (inst : Stored) (write : Stored → Stored)
    (reply : Reply) : RowLock.Plan Stored Reply :=
  if valid now inst then .save write reply else .leave .raised

variable (valid : ℕ → Stored → Bool)

/-- What each call does. -/
def Call.txn : Call → RowLock.Txn Stored Reply
  | .update data user activeOnly =>
    .locked (fun r => !activeOnly || r.isActive) (.updated none) fun now r =>
      let inst := updated data user r
      if data.any Setting.raises then .leave .raised
      else if inst.pk = r.pk then
        -- without `update_fields` every column of the instance is written
        save valid now inst (fun _ => inst.touch now) (.updated (some (inst.touch now)))
      else if valid now inst then .leave (.moved (inst.touch now))
      else .leave .raised
  | .delete user activeOnly =>
    .locked (fun r => !activeOnly || r.isActive) (.deleted false) fun now r =>
      let inst := (r.set .isActive false).stampUser user
      save valid now inst (writeFields (deletedFields user) (inst.touch now)) (.deleted true)
  | .revoke user =>
    .locked (fun r => r.isActive) (.revoked false false) fun now r =>
      if r.revokedAt.isSome then .leave (.revoked false true)
      else
        let inst := (r.set .revokedAt (some now)).set .updatedBy user
        save valid now inst
          (writeFields [.revokedAt, .updatedAt, .updatedBy] (inst.touch now)) (.revoked true false)
  | .stamp => .statement (fun now r => r.set .lastUsedAt (some now)) .stamped

/-! ## What a call writes -/

/-- The value an entry has for a column. -/
def Setting.value (c : Column) : Setting → Option c.Cell
  | .column d v => if h : d = c then some (h ▸ v) else none
  | _ => none

/-- The last value some entries have for a column. -/
def lastValue (c : Column) : List Setting → Option c.Cell
  | [] => none
  | e :: data => (lastValue c data).or (e.value c)

/-- `updated_by`, if there is a user. -/
def userSetting : Option ℕ → List Setting
  | none => []
  | some u => [.column .updatedBy (some u)]

/-- What a call that saves means to write: `update` the entries of its data, and each call
its own columns. -/
def Call.settings (now : ℕ) : Call → List Setting
  | .update data user _ => data ++ (userSetting user ++ [.column .updatedAt now])
  | .delete user _ => .column .isActive false :: (userSetting user ++ [.column .updatedAt now])
  | .revoke user =>
    [.column .revokedAt (some now), .column .updatedBy user, .column .updatedAt now]
  | .stamp => [.column .lastUsedAt (some now)]

theorem get_setattr (r : Stored) (e : Setting) (c : Column) :
    (r.setattr e).get c = (e.value c).getD (r.get c) := by
  cases e with
  | column d v =>
    rcases eq_or_ne d c with rfl | hne
    · simp [Stored.setattr, Setting.value]
    · simp [Stored.setattr, Setting.value, hne, get_set_of_ne r v hne.symm]
  | unsaved => rfl
  | refused => rfl

/-- Setting some attributes leaves the last value of each column, and the others alone. -/
theorem get_foldl_setattr (data : List Setting) (r : Stored) (c : Column) :
    (data.foldl Stored.setattr r).get c = (lastValue c data).getD (r.get c) := by
  induction data generalizing r with
  | nil => rfl
  | cons e data ih => rw [List.foldl_cons, ih, get_setattr, lastValue, Option.getD_or]

theorem stampUser_eq (r : Stored) (user : Option ℕ) :
    r.stampUser user = (userSetting user).foldl Stored.setattr r := by
  cases user <;> rfl

variable {valid}

/-- The call left what it meant to write over the row, if it returns that it saved, and the
row as it was if not. -/
def Writes (k : Call) (now : ℕ) (r : Stored) (out : Stored × Reply) : Prop :=
  out.1 = if out.2.saved then (k.settings now).foldl Stored.setattr r else r

theorem writes_of_not_saved {k : Call} {now : ℕ} {r : Stored} {reply : Reply}
    (hreply : reply.saved = false) : Writes k now r (r, reply) := by
  simp [Writes, hreply]

theorem writes_save {k : Call} {now : ℕ} {inst r : Stored} {write : Stored → Stored}
    {reply : Reply} (hreply : reply.saved = true)
    (hwrite : write r = (k.settings now).foldl Stored.setattr r) :
    Writes k now r ((save valid now inst write reply).carryOut r) := by
  rw [save]
  split
  · simp [Writes, RowLock.Plan.carryOut, hreply, hwrite]
  · exact writes_of_not_saved rfl

/-- The instance `update` saves is the row with its settings. -/
theorem touch_updated (data : List Setting) (user : Option ℕ) (now : ℕ) (r : Stored) :
    (updated data user r).touch now =
      (data ++ (userSetting user ++ [Setting.column .updatedAt now])).foldl Stored.setattr r := by
  rw [List.foldl_append, List.foldl_append, ← stampUser_eq]
  rfl

/-- **A call that saved wrote what it meant to, over the row it found.** -/
theorem writes_alone (k : Call) (now : ℕ) (r : Stored) :
    Writes k now r ((k.txn valid).alone now r) := by
  cases k with
  | update data user activeOnly =>
    simp only [Call.txn, RowLock.Txn.alone]
    split
    · split
      · exact writes_of_not_saved rfl
      · split
        · exact writes_save rfl (touch_updated data user now r)
        · split
          · exact writes_of_not_saved rfl
          · exact writes_of_not_saved rfl
    · exact writes_of_not_saved rfl
  | delete user activeOnly =>
    simp only [Call.txn, RowLock.Txn.alone]
    split
    · refine writes_save rfl ?_
      cases user <;> rfl
    · exact writes_of_not_saved rfl
  | revoke user =>
    simp only [Call.txn, RowLock.Txn.alone]
    split
    · split
      · exact writes_of_not_saved rfl
      · exact writes_save rfl rfl
    · exact writes_of_not_saved rfl
  | stamp => rfl

/-- A call that saved left its value in each column it writes. -/
theorem get_alone_of_saved {k : Call} {now : ℕ} {r : Stored} {c : Column} {v : c.Cell}
    (hsaved : ((k.txn valid).alone now r).2.saved = true)
    (hv : lastValue c (k.settings now) = some v) : ((k.txn valid).alone now r).1.get c = v := by
  have hwrites : Writes k now r ((k.txn valid).alone now r) := writes_alone k now r
  rw [Writes, if_pos hsaved] at hwrites
  rw [hwrites, get_foldl_setattr, hv, Option.getD_some]

/-- A column it does not write is as it was. -/
theorem get_alone_of_not_written {k : Call} {now : ℕ} {r : Stored} {c : Column}
    (hnot : ((k.txn valid).alone now r).2.saved = true → lastValue c (k.settings now) = none) :
    ((k.txn valid).alone now r).1.get c = r.get c := by
  have hwrites : Writes k now r ((k.txn valid).alone now r) := writes_alone k now r
  rw [Writes] at hwrites
  rw [hwrites]
  split
  · next hsaved => rw [get_foldl_setattr, hnot hsaved, Option.getD_none]
  · rfl

/-- The three that name their columns write those of `ApiKey.revoke`, `ApiKey.delete` and
`ApiKey.stampUsed`. -/
theorem toRow_settings (u : ℕ) (user : Option ℕ) (activeOnly : Bool) (now : ℕ) (r : Stored) :
    (((Call.revoke (some u)).settings now).foldl Stored.setattr r).toRow =
        revokeFields u now r.toRow ∧
      (((Call.delete user activeOnly).settings now).foldl Stored.setattr r).toRow =
        deleteFields user now r.toRow ∧
      ((Call.stamp.settings now).foldl Stored.setattr r).toRow =
        { r.toRow with lastUsedAt := some now } := by
  refine ⟨rfl, ?_, rfl⟩
  cases user <;> rfl

/-! ## No lost update -/

/-- The row is that of the finished calls, one at a time, and each value a call wrote is
there until a later call writes the column. -/
structure NoLostUpdate (valid : ℕ → Stored → Bool) (row₀ : Stored)
    (s : RowLock.State Stored Call Reply) : Prop where
  /-- the row is what the calls leave in the order they finished, each returning what it
  returned, -/
  serial : RowLock.Serial (Call.txn valid) row₀ s.history s.row
  /-- these are the calls that returned, -/
  returned : ∀ i k reply, s.calls i = some (k, .returned reply) ↔
    ∃ now, ⟨i, k, now, reply⟩ ∈ s.history
  /-- each of them once, -/
  once : (s.history.map RowLock.Commit.id).Nodup
  /-- and a column has the value of the last call that wrote it -/
  survives : ∀ before c after, s.history = before ++ c :: after → c.reply.saved = true →
    ∀ (col : Column) (v : col.Cell), lastValue col (c.call.settings c.now) = some v →
      (∀ d ∈ after, d.reply.saved = true → lastValue col (d.call.settings d.now) = none) →
      s.row.get col = v

/-- **No update is lost**, whatever the calls and however their steps interleave. -/
theorem no_lost_update {row₀ : Stored} {ls : List (RowLock.Label Call)}
    {s : RowLock.State Stored Call Reply}
    (h : (RowLock.machine (Call.txn valid)).run (RowLock.init row₀) ls = some s) :
    NoLostUpdate valid row₀ s := by
  have hinv : RowLock.Inv (Call.txn valid) row₀ s := RowLock.inv_of_run h
  refine ⟨hinv.serial, hinv.mem_history, hinv.nodup, ?_⟩
  intro before c after hhistory hsaved col v hv hafter
  have hserial := hinv.serial
  rw [hhistory] at hserial
  refine hserial.survives (f := fun r => r.get col) ?_ ?_
  · intro x hreply
    exact get_alone_of_saved (by rw [← hreply] at hsaved; exact hsaved) hv
  · intro d hd x hreply
    refine get_alone_of_not_written ?_
    intro hdsaved
    exact hafter d hd (by rw [← hreply]; exact hdsaved)

/-- A key before the calls. -/
def ciKey : Stored where
  pk := 1
  user := 4
  name := "ci".toList
  keyPrefix := "aaaaaaaa".toList
  secret := "aaaaaaaa-key".toList
  lastUsedAt := none
  revokedAt := none
  isActive := true
  createdBy := none
  updatedBy := none
  createdAt := 0
  updatedAt := 0
  notes := none

/-- A renaming, a revocation and a stamp begin before any of them finishes. -/
def threeWriters : List (RowLock.Label Call) :=
  [.start 0 (.update [.column .name "deploy".toList] (some 7) true), .start 1 (.revoke (some 8)),
    .start 2 .stamp, .advance 0 10, .advance 0 11, .advance 0 12, .advance 0 13, .advance 1 14,
    .advance 1 15, .advance 1 16, .advance 1 17, .advance 2 18]

/-- All three writes survive. -/
theorem three_writers_survive : ∃ s,
    (RowLock.machine (Call.txn fun _ _ => true)).run (RowLock.init ciKey) threeWriters = some s ∧
      NoLostUpdate (fun _ _ => true) ciKey s ∧ s.row.name = "deploy".toList ∧
        s.row.revokedAt = some 15 ∧ s.row.lastUsedAt = some 18 :=
  ⟨_, rfl, @no_lost_update _ _ threeWriters _ rfl, rfl, rfl, rfl⟩

end Updates

end ApiKey

end DjangoBoilerplate
