import BeylaTracer.World

/-!
# The Go tracer (`gotracer.Tracer`)

The program bundle for Go executables. Its `Load` picks one of the four objects `bpf2go`
compiled from `go_tracer.c` (plain or debug, with or without context propagation) and its
`GoProbes` table lists the Go functions to instrument; both consult `supportsContextPropagation()`,
which reads the process-wide `IntegrityModeOverride` flag at the time of the call. The programs
of the table are fields of `p.bpfObjects`, all `nil` until `LoadAndAssign` has filled them.
`ebpfcommon.SupportsContextPropagation` is taken to answer the same on every call: it is the
parameter `supports`. The other probe tables of the Go tracer are `nil`.

`Constants` fills the constants table patched into the object before loading, and `readString`
decodes the NUL-terminated `int8` arrays of the debug log events.
-/

namespace BeylaTracer

/-- The part of `ebpfcommon.TracerConfig` the Go tracer reads. -/
structure TracerConfig where
  /-- `BpfDebug`. -/
  bpfDebug : Bool
  /-- `WakeupLen`, a Go `int`. -/
  wakeupLen : Int

/-- `Tracer.supportsContextPropagation`. -/
def supportsContextPropagation (supports override : Bool) : Bool :=
  !override && supports

/-- A `bpf2go` loader such as `loadBpf_tp`: it parses the object embedded in the binary, and
`parse` is what `ebpf.LoadCollectionSpecFromReader` says about it (`none` when it parses). -/
def loadObject (parse : String → Option String) (name : String) : Except String CollectionSpec :=
  match parse name with
  | some err => .error s!"can\x27t load {name}: {err}"
  | none => .ok name

/-- `Tracer.Load`. -/
def Tracer.load (cfg : TracerConfig) (parse : String → Option String) (supports override : Bool) :
    Except String CollectionSpec :=
  let loader := if cfg.bpfDebug then "bpf_debug" else "bpf"
  let loader :=
    if supportsContextPropagation supports override then
      if cfg.bpfDebug then "bpf_tp_debug" else "bpf_tp"
    else loader
  loadObject parse loader

/-- The objects with the context-propagation programs (`loadBpf_tp`, `loadBpf_tp_debug`). -/
def IsContextPropagation (spec : CollectionSpec) : Prop :=
  spec = "bpf_tp" ∨ spec = "bpf_tp_debug"

instance (spec : CollectionSpec) : Decidable (IsContextPropagation spec) :=
  inferInstanceAs (Decidable (_ ∨ _))

/-- The entries of `GoProbes` that do not depend on context propagation. -/
def goProbesBase : List (String × FunctionPrograms) :=
  [("runtime.newproc1",
      { start := "UprobeProcNewproc1", «end» := "UprobeProcNewproc1Ret" }),
    ("runtime.goexit1", { start := "UprobeProcGoexit1" }),
    ("net/http.serverHandler.ServeHTTP",
      { start := "UprobeServeHTTP", «end» := "UprobeServeHTTPReturns" }),
    ("net/http.(*conn).readRequest",
      { start := "UprobeReadRequestStart", «end» := "UprobeReadRequestReturns" }),
    ("net/http.(*Transport).roundTrip",
      { start := "UprobeRoundTrip", «end» := "UprobeRoundTripReturn" }),
    ("golang.org/x/net/http2.(*ClientConn).roundTrip",
      { start := "UprobeHttp2RoundTrip", «end» := "UprobeRoundTripReturn" }),
    ("golang.org/x/net/http2.(*ClientConn).RoundTrip",
      { start := "UprobeHttp2RoundTrip", «end» := "UprobeRoundTripReturn" }),
    ("net/http.(*http2ClientConn).RoundTrip",
      { start := "UprobeHttp2RoundTrip", «end» := "UprobeRoundTripReturn" }),
    ("golang.org/x/net/http2.(*responseWriterState).writeHeader",
      { start := "UprobeHttp2ResponseWriterStateWriteHeader" }),
    ("net/http.(*http2responseWriterState).writeHeader",
      { start := "UprobeHttp2ResponseWriterStateWriteHeader" }),
    ("net/http.(*response).WriteHeader",
      { start := "UprobeHttp2ResponseWriterStateWriteHeader" }),
    ("golang.org/x/net/http2.(*serverConn).runHandler",
      { start := "UprobeHttp2serverConnRunHandler" }),
    ("net/http.(*http2serverConn).runHandler",
      { start := "UprobeHttp2serverConnRunHandler" }),
    ("net/http.(*conn).serve", { start := "UprobeConnServe", «end» := "UprobeConnServeRet" }),
    ("net.(*netFD).Read", { start := "UprobeNetFdRead" }),
    ("net/http.(*persistConn).roundTrip", { start := "UprobePersistConnRoundTrip" }),
    ("database/sql.(*DB).queryDC", { start := "UprobeQueryDC", «end» := "UprobeQueryReturn" }),
    ("database/sql.(*DB).execDC", { start := "UprobeExecDC", «end» := "UprobeQueryReturn" }),
    ("google.golang.org/grpc.(*Server).handleStream",
      { start := "UprobeServerHandleStream", «end» := "UprobeServerHandleStreamReturn" }),
    ("google.golang.org/grpc/internal/transport.(*http2Server).WriteStatus",
      { start := "UprobeTransportWriteStatus" }),
    ("google.golang.org/grpc.(*ClientConn).Invoke",
      { start := "UprobeClientConnInvoke", «end» := "UprobeClientConnInvokeReturn" }),
    ("google.golang.org/grpc.(*ClientConn).NewStream",
      { start := "UprobeClientConnNewStream", «end» := "UprobeServerHandleStreamReturn" }),
    ("google.golang.org/grpc.(*ClientConn).Close", { start := "UprobeClientConnClose" }),
    ("google.golang.org/grpc.(*clientStream).RecvMsg",
      { «end» := "UprobeClientStreamRecvMsgReturn" }),
    ("google.golang.org/grpc.(*clientStream).CloseSend",
      { «end» := "UprobeClientConnInvokeReturn" }),
    ("google.golang.org/grpc/internal/transport.(*http2Client).NewStream",
      { start := "UprobeTransportHttp2ClientNewStream" }),
    ("google.golang.org/grpc/internal/transport.(*http2Server).operateHeaders",
      { start := "UprobeHttp2ServerOperateHeaders" }),
    ("google.golang.org/grpc/internal/transport.(*serverHandlerTransport).HandleStreams",
      { start := "UprobeServerHandlerTransportHandleStreams" })]

/-- The context-propagation entries of `GoProbes`. -/
def contextPropagationProbes : List (String × FunctionPrograms) :=
  [("net/http.Header.writeSubset", { start := "UprobeWriteSubset" }),
    ("golang.org/x/net/http2.(*Framer).WriteHeaders",
      { start := "UprobeHttp2FramerWriteHeaders", «end» := "UprobeHttp2FramerWriteHeadersReturns" }),
    ("net/http.(*http2Framer).WriteHeaders",
      { start := "UprobeHttp2FramerWriteHeaders", «end» := "UprobeHttp2FramerWriteHeadersReturns" })]

/-- The programs of a table entry as read from `p.bpfObjects`: the ones it names once the objects
are assigned, none before. -/
def FunctionPrograms.ofObjects (objects : Option CollectionSpec) (fp : FunctionPrograms) :
    FunctionPrograms :=
  if objects.isSome then fp else {}

/-- `Tracer.GoProbes`, for the objects assigned to the tracer so far. -/
def Tracer.goProbes (objects : Option CollectionSpec) (supports override : Bool) :
    List (String × FunctionPrograms) :=
  (if supportsContextPropagation supports override then goProbesBase ++ contextPropagationProbes
    else goProbesBase).map fun e => (e.1, e.2.ofObjects objects)

/-- The probe table has the three context-propagation functions. -/
def HasContextPropagationProbes (m : List (String × FunctionPrograms)) : Prop :=
  ∀ e ∈ contextPropagationProbes, e ∈ m

instance (m : List (String × FunctionPrograms)) : Decidable (HasContextPropagationProbes m) :=
  inferInstanceAs (Decidable (∀ e ∈ contextPropagationProbes, e ∈ m))

/-- The Go tracer as a program of the process tracer. -/
def goTracer (cfg : TracerConfig) (parse : String → Option String) (supports : Bool) : Program where
  load := Tracer.load cfg parse supports
  kProbes := []
  tracepoints := []
  socketFilters := []
  goProbes objects := Tracer.goProbes objects supports
  uProbes _ := []

/-! ## `Constants` -/

/-- A value of a Go `any` in the constants table. -/
inductive GoAny
  | nil
  | uint32 (x : UInt32)
  | uint64 (x : UInt64)
  deriving DecidableEq, Repr

/-- The field offsets `Constants` copies as they are. -/
def requiredConstants : List String :=
  ["url_ptr_pos", "path_ptr_pos", "method_ptr_pos", "status_code_ptr_pos",
    "content_length_ptr_pos", "req_header_ptr_pos", "io_writer_buf_ptr_pos", "io_writer_n_pos",
    "tcp_addr_port_ptr_pos", "tcp_addr_ip_ptr_pos", "pc_conn_pos", "pc_tls_pos", "c_rwc_pos",
    "c_tls_pos", "net_conn_pos", "conn_fd_pos", "fd_laddr_pos", "fd_raddr_pos"]

/-- The field offsets `Constants` replaces by the all-ones sentinel when they are missing. -/
def optionalConstants : List String :=
  ["cc_next_stream_id_pos", "framer_w_pos", "cc_tconn_pos", "sc_conn_pos",
    "grpc_stream_st_ptr_pos", "grpc_stream_method_ptr_pos", "grpc_status_s_pos",
    "grpc_status_code_ptr_pos", "grpc_st_conn_pos", "grpc_stream_ctx_ptr_pos", "grpc_t_conn_pos",
    "grpc_t_scheme_pos", "value_context_val_ptr_pos", "http2_client_next_id_pos",
    "grpc_transport_buf_writer_buf_pos", "grpc_transport_buf_writer_offset_pos"]

/-- `Tracer.Constants`: `field` is `offsets.Field` (a missing key reads as `nil`), `traceSize` is
`unsafe.Sizeof(ebpfcommon.HTTPRequestTrace{})`; a key outside the table is `none`. The conversion
`uint32(p.cfg.WakeupLen)` keeps the low 32 bits of the `int`, so a negative value wraps. -/
def Tracer.constants (cfg : TracerConfig) (traceSize : Nat) (field : String → GoAny) :
    String → Option GoAny :=
  let constants : String → Option GoAny := fun s =>
    if s = "wakeup_data_bytes" then
      some (.uint32 (UInt32.ofNat (cfg.wakeupLen % 4294967296).toNat * UInt32.ofNat traceSize))
    else none
  let constants := requiredConstants.foldl (fun c s => Function.update c s (some (field s)))
    constants
  optionalConstants.foldl
    (fun c s => Function.update c s
      (some (if field s = .nil then .uint64 0xffffffffffffffff else field s)))
    constants

/-! ## `readString` -/

/-- The loop of `readString` at index `i`: a zero element truncates `bytes` to `bytes[:i]` and
stops, any other is stored at `bytes[i]`. -/
def readStringLoop : List Int8 → Nat → List UInt8 → List UInt8
  | [], _, bytes => bytes
  | v :: vs, i, bytes =>
    if v = 0 then bytes.take i else readStringLoop vs (i + 1) (bytes.set i v.toUInt8)

/-- `readString`: the bytes of the Go string it returns, `bytes` starting as `len(data)` zeros. -/
def readString (data : List Int8) : List UInt8 :=
  readStringLoop data 0 (List.replicate data.length 0)

end BeylaTracer
