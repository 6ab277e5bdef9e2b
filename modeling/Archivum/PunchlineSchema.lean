import Archivum.TableDefs

set_option autoImplicit false

/-!
# The Punchline schema

The tables of both migrations as the module creates them, with their indexes,
foreign keys and checks, and the audit log of the core schema.
-/
namespace Archivum.PunchlineSchema
open ByteStrings RecordModel TableDefs

def names (l:List String) : List Bytes := l.map ascii

def col (name:String) (type:ColumnType) : ColumnDef := { name:=ascii name,type,nullable:=false }

def nullableCol (name:String) (type:ColumnType) : ColumnDef := { name:=ascii name,type,nullable:=true }

def index (name:String) (columns:List String) : IndexDef := { name:=ascii name,columns:=names columns }

def uniqueIndex (name:String) (columns:List String) : IndexDef := { index name columns with unique:=true }

def fk (name:String) (columns:List String) (refTable:String) (refColumns:List String) : ForeignKeyDef :=
 { name:=ascii name,columns:=names columns,refTable:=ascii refTable,refColumns:=names refColumns }

def oneOf (name column:String) (values:List String) : CheckDef :=
 { name:=ascii name,column:=ascii column,op:=.in,operands:=values.map fun v=>.text (ascii v) }

def nonEmpty (name column:String) : CheckDef :=
 { name:=ascii name,column:=ascii column,op:=.ne,operands:=[.text []] }

def atLeast (name column:String) (v:Int64) : CheckDef :=
 { name:=ascii name,column:=ascii column,op:=.ge,operands:=[.integer v] }

def atMost (name column:String) (v:Int64) : CheckDef :=
 { name:=ascii name,column:=ascii column,op:=.le,operands:=[.integer v] }

def columnAfter (name column other:String) : CheckDef :=
 { name:=ascii name,column:=ascii column,op:=.gt,otherColumn:=ascii other }

def columnAtOrAfter (name column other:String) : CheckDef :=
 { name:=ascii name,column:=ascii column,op:=.ge,otherColumn:=ascii other }

def kEntryStates : List String := ["recorded","submitted","approved","released","locked"]

def kPeriodStates : List String := ["open","locked"]

def auditLog : TableDef where
 name := ascii "audit_log"
 columns:=[col "id" .integer,col "at" .timestamp,col "actor_kind" .text,nullableCol "actor_tid" .text,
  nullableCol "actor_oid" .text,nullableCol "actor_account" .text,nullableCol "actor_device" .uuid,
  col "action" .text,nullableCol "target_table" .text,nullableCol "target_id" .text,
  nullableCol "request_id" .text,nullableCol "detail" .text]
 primaryKey:=names ["id"]
 indexes:=[index "audit_log_at" ["at"],index "audit_log_target" ["target_table","target_id"],
  index "audit_log_actor" ["actor_tid","actor_oid"],index "audit_log_device" ["actor_device"],
  index "audit_log_account" ["actor_account"]]
 checks:=[oneOf "audit_log_actor_kind_known" "actor_kind" ["principal","device","account","system"],
  nonEmpty "audit_log_action_nonempty" "action"]

def employees : TableDef where
 name := ascii "employees"
 columns:=[col "id" .integer,col "employee_number" .text,col "display_name" .text,
  nullableCol "email" .text,nullableCol "tid" .text,nullableCol "oid" .text,col "active" .boolean,
  nullableCol "pay_group" .text,col "site_zone" .text,col "created_at" .timestamp,
  col "updated_at" .timestamp,nullableCol "company" .text,nullableCol "cost_center" .text]
 primaryKey:=names ["id"]
 indexes:=[uniqueIndex "employees_number" ["employee_number"],
  uniqueIndex "employees_identity" ["tid","oid"],
  index "employees_active_name" ["active","display_name"]]
 checks:=[nonEmpty "employees_number_nonempty" "employee_number",
  nonEmpty "employees_name_nonempty" "display_name",nonEmpty "employees_zone_nonempty" "site_zone"]

def devices : TableDef where
 name := ascii "devices"
 columns:=[col "id" .integer,col "device_uuid" .uuid,col "name" .text,col "employee_id" .integer,
  col "credential_hash" .blob,col "enrolled_at" .timestamp,col "enrolled_by" .text,
  nullableCol "revoked_at" .timestamp,nullableCol "revoked_reason" .text,
  nullableCol "last_seen_at" .timestamp,nullableCol "last_acked_sequence" .integer,
  nullableCol "last_journal_id" .uuid,col "employee_id_rejections" .integer]
 primaryKey:=names ["id"]
 indexes:=[uniqueIndex "devices_uuid" ["device_uuid"],
  index "devices_employee" ["employee_id","revoked_at"]]
 foreignKeys:=[fk "devices_employee_fk" ["employee_id"] "employees" ["id"]]
 checks:=[nonEmpty "devices_name_nonempty" "name",
  atLeast "devices_rejections_min" "employee_id_rejections" 0]

def payPeriods : TableDef where
 name := ascii "pay_periods"
 columns:=[col "id" .integer,col "start_day" .integer,col "end_day" .integer,col "site_zone" .text,
  col "tzdb_version" .text,col "state" .text,nullableCol "submit_by" .timestamp,
  nullableCol "approve_by" .timestamp,nullableCol "release_at" .timestamp]
 primaryKey:=names ["id"]
 indexes:=[uniqueIndex "pay_periods_start" ["start_day"],index "pay_periods_state" ["state"]]
 checks:=[oneOf "pay_periods_state_known" "state" kPeriodStates,
  columnAtOrAfter "pay_periods_days_ordered" "end_day" "start_day",
  columnAtOrAfter "pay_periods_cutoffs_ordered" "approve_by" "submit_by"]

def supervisorAssignments : TableDef where
 name := ascii "supervisor_assignments"
 columns:=[col "id" .integer,col "employee_id" .integer,col "supervisor_employee_id" .integer,
  col "effective_from" .timestamp,nullableCol "effective_to" .timestamp,col "assigned_by" .text,
  col "audit_id" .integer]
 primaryKey:=names ["id"]
 indexes:=[index "supervisor_assignments_employee" ["employee_id","effective_from"],
  index "supervisor_assignments_supervisor" ["supervisor_employee_id","effective_from"],
  index "supervisor_assignments_audit" ["audit_id"]]
 foreignKeys:=[fk "supervisor_assignments_employee_fk" ["employee_id"] "employees" ["id"],
  fk "supervisor_assignments_supervisor_fk" ["supervisor_employee_id"] "employees" ["id"],
  fk "supervisor_assignments_audit_fk" ["audit_id"] "audit_log" ["id"]]
 checks:=[nonEmpty "supervisor_assignments_by_nonempty" "assigned_by",
  columnAfter "supervisor_assignments_range_ordered" "effective_to" "effective_from"]

def payCodes : TableDef where
 name := ascii "pay_codes"
 columns:=[col "code" .text,col "description" .text,col "paid" .boolean,col "active" .boolean]
 primaryKey:=names ["code"]
 checks:=[nonEmpty "pay_codes_code_nonempty" "code"]

def schedules : TableDef where
 name := ascii "schedules"
 columns:=[col "id" .integer,col "employee_id" .integer,col "weekday" .integer,
  col "start_minute" .integer,col "end_minute" .integer,col "effective_from_day" .integer,
  nullableCol "effective_to_day" .integer]
 primaryKey:=names ["id"]
 indexes:=[index "schedules_employee" ["employee_id","weekday","effective_from_day"]]
 foreignKeys:=[fk "schedules_employee_fk" ["employee_id"] "employees" ["id"]]
 checks:=[atLeast "schedules_weekday_min" "weekday" 0,atMost "schedules_weekday_max" "weekday" 6,
  atLeast "schedules_start_min" "start_minute" 0,atMost "schedules_start_max" "start_minute" 1439,
  atLeast "schedules_end_min" "end_minute" 0,atMost "schedules_end_max" "end_minute" 1440,
  columnAfter "schedules_minutes_ordered" "end_minute" "start_minute",
  columnAfter "schedules_days_ordered" "effective_to_day" "effective_from_day"]

def timeEntries : TableDef where
 name := ascii "time_entries"
 columns:=[col "id" .integer,col "entry_uuid" .uuid,col "employee_id" .integer,
  col "device_id" .integer,nullableCol "journal_id" .uuid,col "journal_sequence" .integer,
  col "kind" .text,col "device_time" .timestamp,col "local_time" .text,col "site_zone" .text,
  col "tzdb_version" .text,col "receipt_time" .timestamp,col "attestation" .text,
  nullableCol "clock_divergence_us" .integer,nullableCol "period_id" .integer,col "state" .text,
  nullableCol "pay_code" .text,nullableCol "approval_audit_id" .integer,
  nullableCol "correction_of" .integer,nullableCol "correction_reason" .text,
  col "created_at" .timestamp,nullableCol "note" .text,nullableCol "superseded_by" .integer]
 primaryKey:=names ["id"]
 indexes:=[uniqueIndex "time_entries_uuid" ["entry_uuid"],
  uniqueIndex "time_entries_journal_sequence" ["journal_id","journal_sequence"],
  index "time_entries_device_sequence" ["device_id","journal_sequence"],
  index "time_entries_employee_time" ["employee_id","device_time"],
  index "time_entries_period" ["period_id","employee_id"],index "time_entries_state" ["state"],
  index "time_entries_correction" ["correction_of"],index "time_entries_superseded" ["superseded_by"],
  index "time_entries_approval" ["approval_audit_id"],index "time_entries_pay_code" ["pay_code"],
  index "time_entries_attestation" ["attestation","device_time"]]
 foreignKeys:=[fk "time_entries_employee_fk" ["employee_id"] "employees" ["id"],
  fk "time_entries_device_fk" ["device_id"] "devices" ["id"],
  fk "time_entries_period_fk" ["period_id"] "pay_periods" ["id"],
  fk "time_entries_approval_fk" ["approval_audit_id"] "audit_log" ["id"],
  fk "time_entries_correction_fk" ["correction_of"] "time_entries" ["id"],
  fk "time_entries_superseded_fk" ["superseded_by"] "time_entries" ["id"],
  fk "time_entries_pay_code_fk" ["pay_code"] "pay_codes" ["code"]]
 checks:=[oneOf "time_entries_kind_known" "kind" ["in","out"],
  oneOf "time_entries_attestation_known" "attestation" ["device","server","manual"],
  oneOf "time_entries_state_known" "state" kEntryStates,
  atLeast "time_entries_sequence_min" "journal_sequence" 0]

def shifts : TableDef where
 name := ascii "shifts"
 columns:=[col "id" .integer,col "employee_id" .integer,col "device_id" .integer,
  col "in_entry_id" .integer,nullableCol "out_entry_id" .integer,col "local_day" .integer,
  nullableCol "period_id" .integer,col "in_time" .timestamp,nullableCol "out_time" .timestamp,
  nullableCol "duration_us" .integer,nullableCol "pay_code" .text,col "state" .text]
 primaryKey:=names ["id"]
 indexes:=[uniqueIndex "shifts_in_entry" ["in_entry_id"],
  uniqueIndex "shifts_out_entry" ["out_entry_id"],
  index "shifts_employee_day" ["employee_id","local_day"],
  index "shifts_employee_state" ["employee_id","state"],
  index "shifts_period" ["period_id","employee_id"],index "shifts_device" ["device_id"],
  index "shifts_pay_code" ["pay_code"]]
 foreignKeys:=[fk "shifts_employee_fk" ["employee_id"] "employees" ["id"],
  fk "shifts_device_fk" ["device_id"] "devices" ["id"],
  fk "shifts_in_fk" ["in_entry_id"] "time_entries" ["id"],
  fk "shifts_out_fk" ["out_entry_id"] "time_entries" ["id"],
  fk "shifts_period_fk" ["period_id"] "pay_periods" ["id"],
  fk "shifts_pay_code_fk" ["pay_code"] "pay_codes" ["code"]]
 checks:=[oneOf "shifts_state_known" "state" kEntryStates,
  columnAfter "shifts_times_ordered" "out_time" "in_time",atLeast "shifts_duration_min" "duration_us" 0]

def syncBatches : TableDef where
 name := ascii "sync_batches"
 columns:=[col "id" .integer,col "batch_uuid" .uuid,col "device_id" .integer,
  col "received_at" .timestamp,col "first_sequence" .integer,col "last_sequence" .integer,
  col "accepted" .integer,col "rejected" .integer,nullableCol "client_time_us" .timestamp,
  nullableCol "clock_divergence_us" .integer,nullableCol "journal_id" .uuid]
 primaryKey:=names ["id"]
 indexes:=[uniqueIndex "sync_batches_uuid" ["batch_uuid"],
  index "sync_batches_device" ["device_id","received_at"]]
 foreignKeys:=[fk "sync_batches_device_fk" ["device_id"] "devices" ["id"]]
 checks:=[atLeast "sync_batches_accepted_min" "accepted" 0,
  atLeast "sync_batches_rejected_min" "rejected" 0]

def approvals : TableDef where
 name := ascii "approvals"
 columns:=[col "id" .integer,col "period_id" .integer,col "employee_id" .integer,
  col "from_state" .text,col "to_state" .text,nullableCol "acted_by_tid" .text,
  nullableCol "acted_by_oid" .text,nullableCol "acted_by_account" .text,col "acted_at" .timestamp,
  nullableCol "note" .text,col "audit_id" .integer]
 primaryKey:=names ["id"]
 indexes:=[index "approvals_period" ["period_id","employee_id","acted_at"],
  index "approvals_audit" ["audit_id"],index "approvals_employee" ["employee_id"]]
 foreignKeys:=[fk "approvals_period_fk" ["period_id"] "pay_periods" ["id"],
  fk "approvals_employee_fk" ["employee_id"] "employees" ["id"],
  fk "approvals_audit_fk" ["audit_id"] "audit_log" ["id"]]
 checks:=[oneOf "approvals_from_known" "from_state" kEntryStates,
  oneOf "approvals_to_known" "to_state" kEntryStates]

def exceptions : TableDef where
 name := ascii "exceptions"
 columns:=[col "id" .integer,col "kind" .text,col "state" .text,nullableCol "employee_id" .integer,
  nullableCol "device_id" .integer,nullableCol "entry_id" .integer,nullableCol "period_id" .integer,
  nullableCol "detail" .text,col "opened_at" .timestamp,nullableCol "resolved_at" .timestamp,
  nullableCol "resolved_by" .text,nullableCol "resolution_audit_id" .integer]
 primaryKey:=names ["id"]
 indexes:=[index "exceptions_state" ["state","opened_at"],index "exceptions_employee" ["employee_id"],
  index "exceptions_device" ["device_id"],index "exceptions_entry" ["entry_id"],
  index "exceptions_period" ["period_id"],index "exceptions_audit" ["resolution_audit_id"]]
 foreignKeys:=[fk "exceptions_employee_fk" ["employee_id"] "employees" ["id"],
  fk "exceptions_device_fk" ["device_id"] "devices" ["id"],
  fk "exceptions_entry_fk" ["entry_id"] "time_entries" ["id"],
  fk "exceptions_period_fk" ["period_id"] "pay_periods" ["id"],
  fk "exceptions_audit_fk" ["resolution_audit_id"] "audit_log" ["id"]]
 checks:=[
  oneOf "exceptions_kind_known" "kind" ["outside_schedule","non_scheduled_day","no_schedule","long_shift",
   "clock_divergence","device_attested_count","retry_exhausted","device_stale","approver_flag",
   "unpaired_punch","employee_id_asserted","past_cutoff","journal_recovery","late_punch","entry_rejected",
   "local_clock_mismatch"],
  oneOf "exceptions_state_known" "state" ["open","resolved","dismissed"]]

def scheduleHours : TableDef where
 name := ascii "schedule_hours"
 columns:=[col "id" .integer,col "employee_id" .integer,col "effective_from_day" .integer,
  nullableCol "effective_to_day" .integer,col "daily_minutes" .integer,col "weekly_minutes" .integer,
  col "set_by" .text,col "audit_id" .integer]
 primaryKey:=names ["id"]
 indexes:=[index "schedule_hours_employee" ["employee_id","effective_from_day"],
  index "schedule_hours_audit" ["audit_id"]]
 foreignKeys:=[fk "schedule_hours_employee_fk" ["employee_id"] "employees" ["id"],
  fk "schedule_hours_audit_fk" ["audit_id"] "audit_log" ["id"]]
 checks:=[atLeast "schedule_hours_daily_min" "daily_minutes" 1,
  atMost "schedule_hours_daily_max" "daily_minutes" 1440,
  atLeast "schedule_hours_weekly_min" "weekly_minutes" 1,
  atMost "schedule_hours_weekly_max" "weekly_minutes" 10080,
  columnAtOrAfter "schedule_hours_weekly_covers_daily" "weekly_minutes" "daily_minutes",
  columnAfter "schedule_hours_days_ordered" "effective_to_day" "effective_from_day"]

def overtimeAuthorizations : TableDef where
 name := ascii "overtime_authorizations"
 columns:=[col "id" .integer,col "employee_id" .integer,col "period_id" .integer,
  col "authorized_minutes" .integer,col "note" .text,col "authorized_by_tid" .text,
  col "authorized_by_oid" .text,col "authorized_at" .timestamp,col "audit_id" .integer]
 primaryKey:=names ["id"]
 indexes:=[index "overtime_authorizations_timesheet" ["employee_id","period_id","id"],
  index "overtime_authorizations_period" ["period_id"],
  index "overtime_authorizations_audit" ["audit_id"]]
 foreignKeys:=[fk "overtime_authorizations_employee_fk" ["employee_id"] "employees" ["id"],
  fk "overtime_authorizations_period_fk" ["period_id"] "pay_periods" ["id"],
  fk "overtime_authorizations_audit_fk" ["audit_id"] "audit_log" ["id"]]
 checks:=[atLeast "overtime_authorizations_minutes_min" "authorized_minutes" 0,
  nonEmpty "overtime_authorizations_tid_nonempty" "authorized_by_tid",
  nonEmpty "overtime_authorizations_oid_nonempty" "authorized_by_oid"]

def timesheetHolds : TableDef where
 name := ascii "timesheet_holds"
 columns:=[col "id" .integer,col "employee_id" .integer,col "period_id" .integer,col "reason" .text,
  col "detail" .text,col "opened_at" .timestamp,nullableCol "cleared_at" .timestamp,
  nullableCol "authorization_id" .integer,col "audit_id" .integer]
 primaryKey:=names ["id"]
 indexes:=[index "timesheet_holds_timesheet" ["employee_id","period_id","id"],
  index "timesheet_holds_period" ["period_id","cleared_at"],
  index "timesheet_holds_authorization" ["authorization_id"],index "timesheet_holds_audit" ["audit_id"]]
 foreignKeys:=[fk "timesheet_holds_employee_fk" ["employee_id"] "employees" ["id"],
  fk "timesheet_holds_period_fk" ["period_id"] "pay_periods" ["id"],
  fk "timesheet_holds_authorization_fk" ["authorization_id"] "overtime_authorizations" ["id"],
  fk "timesheet_holds_audit_fk" ["audit_id"] "audit_log" ["id"]]
 checks:=[oneOf "timesheet_holds_reason_known" "reason" ["daily_hours","weekly_hours"]]

def annotationCodes : TableDef where
 name := ascii "annotation_codes"
 columns:=[col "code" .text,col "description" .text,col "active" .boolean]
 primaryKey:=names ["code"]
 checks:=[nonEmpty "annotation_codes_code_nonempty" "code"]

def shiftAnnotations : TableDef where
 name := ascii "shift_annotations"
 columns:=[col "id" .integer,col "shift_id" .integer,col "code" .text,col "detail" .text]
 primaryKey:=names ["id"]
 indexes:=[uniqueIndex "shift_annotations_shift" ["shift_id","code"],
  index "shift_annotations_code" ["code"]]
 foreignKeys:=[fk "shift_annotations_shift_fk" ["shift_id"] "shifts" ["id"],
  fk "shift_annotations_code_fk" ["code"] "annotation_codes" ["code"]]

def breakCodes : TableDef where
 name := ascii "break_codes"
 columns:=[col "code" .text,col "description" .text,col "premium_eligible" .boolean,
  col "active" .boolean]
 primaryKey:=names ["code"]
 checks:=[nonEmpty "break_codes_code_nonempty" "code"]

def breakPremiumRules : TableDef where
 name := ascii "break_premium_rules"
 columns:=[col "id" .integer,col "break_code" .text,col "threshold_minutes" .integer,
  col "comparison" .text,col "definition" .text,col "source" .text,col "confirmed" .boolean,
  col "effective_from_day" .integer,nullableCol "effective_to_day" .integer,col "set_by" .text,
  col "audit_id" .integer]
 primaryKey:=names ["id"]
 indexes:=[index "break_premium_rules_code" ["break_code","effective_from_day"],
  index "break_premium_rules_audit" ["audit_id"]]
 foreignKeys:=[fk "break_premium_rules_code_fk" ["break_code"] "break_codes" ["code"],
  fk "break_premium_rules_audit_fk" ["audit_id"] "audit_log" ["id"]]
 checks:=[atLeast "break_premium_rules_threshold_min" "threshold_minutes" 0,
  oneOf "break_premium_rules_comparison_known" "comparison" ["greater_than","at_least"],
  nonEmpty "break_premium_rules_definition_nonempty" "definition",
  nonEmpty "break_premium_rules_source_nonempty" "source",
  columnAfter "break_premium_rules_days_ordered" "effective_to_day" "effective_from_day"]

def entryBreakCodes : TableDef where
 name := ascii "entry_break_codes"
 columns:=[col "entry_id" .integer,col "break_code" .text]
 primaryKey:=names ["entry_id"]
 indexes:=[index "entry_break_codes_code" ["break_code"]]
 foreignKeys:=[fk "entry_break_codes_entry_fk" ["entry_id"] "time_entries" ["id"],
  fk "entry_break_codes_code_fk" ["break_code"] "break_codes" ["code"]]

def mealBreaks : TableDef where
 name := ascii "meal_breaks"
 columns:=[col "id" .integer,col "employee_id" .integer,col "out_entry_id" .integer,
  nullableCol "in_entry_id" .integer,col "local_day" .integer,col "started_at" .timestamp,
  nullableCol "ended_at" .timestamp,nullableCol "minutes" .integer,col "premium" .boolean,
  nullableCol "premium_rule_id" .integer]
 primaryKey:=names ["id"]
 indexes:=[uniqueIndex "meal_breaks_out" ["out_entry_id"],
  index "meal_breaks_employee" ["employee_id","local_day"],index "meal_breaks_in" ["in_entry_id"],
  index "meal_breaks_rule" ["premium_rule_id"]]
 foreignKeys:=[fk "meal_breaks_employee_fk" ["employee_id"] "employees" ["id"],
  fk "meal_breaks_out_fk" ["out_entry_id"] "time_entries" ["id"],
  fk "meal_breaks_in_fk" ["in_entry_id"] "time_entries" ["id"],
  fk "meal_breaks_rule_fk" ["premium_rule_id"] "break_premium_rules" ["id"]]
 checks:=[atLeast "meal_breaks_minutes_min" "minutes" 0]

def entryEdits : TableDef where
 name := ascii "entry_edits"
 columns:=[col "id" .integer,col "entry_id" .integer,col "edit_class" .text,col "reason_code" .text,
  col "editor" .text,col "edited_at" .timestamp,col "audit_id" .integer]
 primaryKey:=names ["id"]
 indexes:=[uniqueIndex "entry_edits_entry" ["entry_id"],
  index "entry_edits_class" ["edit_class","edited_at"],index "entry_edits_audit" ["audit_id"]]
 foreignKeys:=[fk "entry_edits_entry_fk" ["entry_id"] "time_entries" ["id"],
  fk "entry_edits_audit_fk" ["audit_id"] "audit_log" ["id"]]
 checks:=[oneOf "entry_edits_class_known" "edit_class" ["payroll","supervisor"],
  nonEmpty "entry_edits_reason_code_nonempty" "reason_code"]

end Archivum.PunchlineSchema
