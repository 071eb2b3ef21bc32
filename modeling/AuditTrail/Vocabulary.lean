/-
The vocabulary of records: what kind of event was audited, where a request came from, what was
done, and the fields that a record may carry. The set is closed and versioned; readers of records
rely on these exact texts.
-/
import AuditTrail.Text.Basic

namespace AuditTrail

/-- The version of the vocabulary. -/
def formatVersion : Int := 4

/-- The kind of an audited event. -/
inductive Category where
  | badHeaders | failedLogin | missingPrivileges | grantedPrivileges | securityIndexAttempt
  | sslException | authenticated | indexEvent | complianceDocRead | complianceDocWrite
  | complianceExternalConfig | complianceInternalConfigRead | complianceInternalConfigWrite
  deriving DecidableEq, Repr, Inhabited

namespace Category

/-- Every category, in the order of the vocabulary. -/
def all : List Category :=
  [.badHeaders, .failedLogin, .missingPrivileges, .grantedPrivileges, .securityIndexAttempt,
   .sslException, .authenticated, .indexEvent, .complianceDocRead, .complianceDocWrite,
   .complianceExternalConfig, .complianceInternalConfigRead, .complianceInternalConfigWrite]

/-- The name of a category in the vocabulary. -/
def label : Category → Text
  | .badHeaders => "BAD_HEADERS".toList
  | .failedLogin => "FAILED_LOGIN".toList
  | .missingPrivileges => "MISSING_PRIVILEGES".toList
  | .grantedPrivileges => "GRANTED_PRIVILEGES".toList
  | .securityIndexAttempt => "SECURITY_INDEX_ATTEMPT".toList
  | .sslException => "SSL_EXCEPTION".toList
  | .authenticated => "AUTHENTICATED".toList
  | .indexEvent => "INDEX_EVENT".toList
  | .complianceDocRead => "COMPLIANCE_DOC_READ".toList
  | .complianceDocWrite => "COMPLIANCE_DOC_WRITE".toList
  | .complianceExternalConfig => "COMPLIANCE_EXTERNAL_CONFIG".toList
  | .complianceInternalConfigRead => "COMPLIANCE_INTERNAL_CONFIG_READ".toList
  | .complianceInternalConfigWrite => "COMPLIANCE_INTERNAL_CONFIG_WRITE".toList

/-- The text that stands for a category in the written record: its name. -/
def wire (x : Category) : Text := x.label

/-- The category written as a text, if there is one. -/
def ofWire? (s : Text) : Option Category := all.find? (·.wire == s)

end Category

/-- The layer that a request came from or that recorded it. -/
inductive Origin where
  | rest | transport | localNode
  deriving DecidableEq, Repr, Inhabited

namespace Origin

/-- Every origin, in the order of the vocabulary. -/
def all : List Origin :=
  [.rest, .transport, .localNode]

/-- The name of an origin in the vocabulary. -/
def label : Origin → Text
  | .rest => "REST".toList
  | .transport => "TRANSPORT".toList
  | .localNode => "LOCAL".toList

/-- The text that stands for an origin in the written record: its name. -/
def wire (x : Origin) : Text := x.label

/-- The origin written as a text, if there is one. -/
def ofWire? (s : Text) : Option Origin := all.find? (·.wire == s)

end Origin

/-- What a compliance write did to a document. -/
inductive Operation where
  | create | update | delete
  deriving DecidableEq, Repr, Inhabited

namespace Operation

/-- Every operation, in the order of the vocabulary. -/
def all : List Operation :=
  [.create, .update, .delete]

/-- The name of an operation in the vocabulary. -/
def label : Operation → Text
  | .create => "CREATE".toList
  | .update => "UPDATE".toList
  | .delete => "DELETE".toList

/-- The text that stands for an operation in the written record: its name. -/
def wire (x : Operation) : Text := x.label

/-- The operation written as a text, if there is one. -/
def ofWire? (s : Text) : Option Operation := all.find? (·.wire == s)

end Operation

/-- The method of a REST request. -/
inductive Method where
  | get | post | put | delete | options | head | patch | trace | connect
  deriving DecidableEq, Repr, Inhabited

namespace Method

/-- Every method, in the order of the vocabulary. -/
def all : List Method :=
  [.get, .post, .put, .delete, .options, .head, .patch, .trace, .connect]

/-- The name of a method in the vocabulary. -/
def label : Method → Text
  | .get => "GET".toList
  | .post => "POST".toList
  | .put => "PUT".toList
  | .delete => "DELETE".toList
  | .options => "OPTIONS".toList
  | .head => "HEAD".toList
  | .patch => "PATCH".toList
  | .trace => "TRACE".toList
  | .connect => "CONNECT".toList

/-- The text that stands for a method in the written record: its name. -/
def wire (x : Method) : Text := x.label

/-- The method written as a text, if there is one. -/
def ofWire? (s : Text) : Option Method := all.find? (·.wire == s)

end Method

/-- The fields of a record. -/
inductive Field where
  | formatVersion | category | requestEffectiveUser | requestInitiatingUser | utcTimestamp
  | clusterName | nodeId | nodeHostAddress | nodeHostName | nodeName | origin | remoteAddress
  | restRequestPath | restRequestParams | restRequestHeaders | restRequestMethod
  | transportRequestType | transportAction | transportRequestHeaders | id | indices | shardId
  | resolvedIndices | taskId | taskParentId | exception | isAdminDn | privilege | requestBody
  | requestLayer | complianceDiffIsNoop | complianceDiffContent | complianceFileInfos
  | complianceOperation | complianceDocVersion
  deriving DecidableEq, Repr, Inhabited

namespace Field

/-- Every field, in the order of the vocabulary. -/
def all : List Field :=
  [.formatVersion, .category, .requestEffectiveUser, .requestInitiatingUser, .utcTimestamp,
   .clusterName, .nodeId, .nodeHostAddress, .nodeHostName, .nodeName, .origin, .remoteAddress,
   .restRequestPath, .restRequestParams, .restRequestHeaders, .restRequestMethod,
   .transportRequestType, .transportAction, .transportRequestHeaders, .id, .indices, .shardId,
   .resolvedIndices, .taskId, .taskParentId, .exception, .isAdminDn, .privilege, .requestBody,
   .requestLayer, .complianceDiffIsNoop, .complianceDiffContent, .complianceFileInfos,
   .complianceOperation, .complianceDocVersion]

/-- The name of a field in the vocabulary. -/
def label : Field → Text
  | .formatVersion => "FORMAT_VERSION".toList
  | .category => "CATEGORY".toList
  | .requestEffectiveUser => "REQUEST_EFFECTIVE_USER".toList
  | .requestInitiatingUser => "REQUEST_INITIATING_USER".toList
  | .utcTimestamp => "UTC_TIMESTAMP".toList
  | .clusterName => "CLUSTER_NAME".toList
  | .nodeId => "NODE_ID".toList
  | .nodeHostAddress => "NODE_HOST_ADDRESS".toList
  | .nodeHostName => "NODE_HOST_NAME".toList
  | .nodeName => "NODE_NAME".toList
  | .origin => "ORIGIN".toList
  | .remoteAddress => "REMOTE_ADDRESS".toList
  | .restRequestPath => "REST_REQUEST_PATH".toList
  | .restRequestParams => "REST_REQUEST_PARAMS".toList
  | .restRequestHeaders => "REST_REQUEST_HEADERS".toList
  | .restRequestMethod => "REST_REQUEST_METHOD".toList
  | .transportRequestType => "TRANSPORT_REQUEST_TYPE".toList
  | .transportAction => "TRANSPORT_ACTION".toList
  | .transportRequestHeaders => "TRANSPORT_REQUEST_HEADERS".toList
  | .id => "ID".toList
  | .indices => "INDICES".toList
  | .shardId => "SHARD_ID".toList
  | .resolvedIndices => "RESOLVED_INDICES".toList
  | .taskId => "TASK_ID".toList
  | .taskParentId => "TASK_PARENT_ID".toList
  | .exception => "EXCEPTION".toList
  | .isAdminDn => "IS_ADMIN_DN".toList
  | .privilege => "PRIVILEGE".toList
  | .requestBody => "REQUEST_BODY".toList
  | .requestLayer => "REQUEST_LAYER".toList
  | .complianceDiffIsNoop => "COMPLIANCE_DIFF_IS_NOOP".toList
  | .complianceDiffContent => "COMPLIANCE_DIFF_CONTENT".toList
  | .complianceFileInfos => "COMPLIANCE_FILE_INFOS".toList
  | .complianceOperation => "COMPLIANCE_OPERATION".toList
  | .complianceDocVersion => "COMPLIANCE_DOC_VERSION".toList

/-- The key of a field in the written record. -/
def wire : Field → Text
  | .formatVersion => "audit_format_version".toList
  | .category => "audit_category".toList
  | .requestEffectiveUser => "audit_request_effective_user".toList
  | .requestInitiatingUser => "audit_request_initiating_user".toList
  | .utcTimestamp => "@timestamp".toList
  | .clusterName => "audit_cluster_name".toList
  | .nodeId => "audit_node_id".toList
  | .nodeHostAddress => "audit_node_host_address".toList
  | .nodeHostName => "audit_node_host_name".toList
  | .nodeName => "audit_node_name".toList
  | .origin => "audit_request_origin".toList
  | .remoteAddress => "audit_request_remote_address".toList
  | .restRequestPath => "audit_rest_request_path".toList
  | .restRequestParams => "audit_rest_request_params".toList
  | .restRequestHeaders => "audit_rest_request_headers".toList
  | .restRequestMethod => "audit_rest_request_method".toList
  | .transportRequestType => "audit_transport_request_type".toList
  | .transportAction => "audit_transport_action".toList
  | .transportRequestHeaders => "audit_transport_headers".toList
  | .id => "audit_trace_doc_id".toList
  | .indices => "audit_trace_indices".toList
  | .shardId => "audit_trace_shard_id".toList
  | .resolvedIndices => "audit_trace_resolved_indices".toList
  | .taskId => "audit_trace_task_id".toList
  | .taskParentId => "audit_trace_task_parent_id".toList
  | .exception => "audit_request_exception_stacktrace".toList
  | .isAdminDn => "audit_request_effective_user_is_admin".toList
  | .privilege => "audit_request_privilege".toList
  | .requestBody => "audit_request_body".toList
  | .requestLayer => "audit_request_layer".toList
  | .complianceDiffIsNoop => "audit_compliance_diff_is_noop".toList
  | .complianceDiffContent => "audit_compliance_diff_content".toList
  | .complianceFileInfos => "audit_compliance_file_infos".toList
  | .complianceOperation => "audit_compliance_operation".toList
  | .complianceDocVersion => "audit_compliance_doc_version".toList

/-- The field written as a text, if there is one. -/
def ofWire? (s : Text) : Option Field := all.find? (·.wire == s)

end Field

/-- What a field holds. -/
inductive FieldKind where
  | integer | text | flag | sequence | mapping | category | origin | method | operation
  deriving DecidableEq, Repr, Inhabited

/-- What each field holds. -/
def Field.kind : Field → FieldKind
  | .formatVersion | .shardId | .complianceDocVersion => .integer
  | .isAdminDn | .complianceDiffIsNoop => .flag
  | .indices | .resolvedIndices | .complianceFileInfos => .sequence
  | .restRequestParams | .restRequestHeaders | .transportRequestHeaders => .mapping
  | .category => .category
  | .origin | .requestLayer => .origin
  | .restRequestMethod => .method
  | .complianceOperation => .operation
  | _ => .text

/-- A member of the vocabulary. -/
inductive Term where
  | field (f : Field)
  | category (c : Category)
  | origin (o : Origin)
  | operation (o : Operation)
  | method (m : Method)
  deriving DecidableEq, Repr

namespace Term

/-- The name of the part of the vocabulary that a member belongs to. -/
def family : Term → Text
  | .field _ => "AuditField".toList
  | .category _ => "AuditCategory".toList
  | .origin _ => "Origin".toList
  | .operation _ => "Operation".toList
  | .method _ => "RestMethod".toList

/-- The name of a member in its part of the vocabulary. -/
def label : Term → Text
  | .field f => f.label
  | .category c => c.label
  | .origin o => o.label
  | .operation o => o.label
  | .method m => m.label

/-- The text that stands for a member in the written record. -/
def wire : Term → Text
  | .field f => f.wire
  | .category c => c.wire
  | .origin o => o.wire
  | .operation o => o.wire
  | .method m => m.wire

end Term

end AuditTrail
