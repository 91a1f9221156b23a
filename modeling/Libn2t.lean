import Libn2t.Transition
import Libn2t.Numeral
import Libn2t.Address
import Libn2t.InetPton
import Libn2t.Socks5
import Libn2t.Printing
import Libn2t.AddressText
import Libn2t.TcpPcb
import Libn2t.Socket
import Libn2t.TcpSession
import Libn2t.TcpInvariant
import Libn2t.TcpFlow
import Libn2t.Handshake
import Libn2t.Upstream
import Libn2t.EndOfStream
import Libn2t.PcbLifetime
import Libn2t.Downstream
import Libn2t.HandOff
import Libn2t.N2T
import Libn2t.Pbuf
import Libn2t.InetChksum
import Libn2t.UdpPort
import Libn2t.MoveToFront
import Libn2t.TcpInput
import Libn2t.TcpStack
import Libn2t.TcpStackInvariant
import Libn2t.TcpCapture
import Libn2t.UdpSession
import Libn2t.UdpDispatch
import Libn2t.UdpCarried
import Libn2t.SocketRun
import Libn2t.SendAccounting
import Libn2t.SessionStates
import Libn2t.StopAndWait
import Libn2t.CallbackSafety
import Libn2t.N2S
import Libn2t.Socks5Codec
import Libn2t.UdpForward
import Libn2t.UdpReply
import Libn2t.MalformedInput
import Libn2t.Association
import Libn2t.AddressRoundTrip
import Libn2t.ReplySource
import Libn2t.IdleTimeout
import Libn2t.ReadBuffer
import Libn2t.SendFailure
import Libn2t.EventLoop
import Libn2t.BackPressure
import Libn2t.AcceptQueueInvariant
import Libn2t.SerialNumber
import Libn2t.TcpReceive
import Libn2t.TcpReassembly
import Libn2t.AdvertisedWindow
import Libn2t.TcpDelivery
import Libn2t.TcpSend
import Libn2t.TcpSendQueue
import Libn2t.TcpSendBuffer
import Libn2t.SocketConn
import Libn2t.Pieces
import Libn2t.Retransmission
import Libn2t.TcpSendStream
import Libn2t.Ip4Frag
import Libn2t.Ip4Reassembly
import Libn2t.Ip4RoundTrip
