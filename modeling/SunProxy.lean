import SunProxy.Lib.Reader
import SunProxy.Lib.Serial
import SunProxy.Net.Acknowledge
import SunProxy.Net.AddressEquality
import SunProxy.Net.Admission
import SunProxy.Net.Births
import SunProxy.Net.Bounds
import SunProxy.Net.Checksums
import SunProxy.Net.ClientHello
import SunProxy.Net.ClientStream
import SunProxy.Net.CompressedName
import SunProxy.Net.Delivery
import SunProxy.Net.Descriptors
import SunProxy.Net.DhcpReply
import SunProxy.Net.DnsFilter
import SunProxy.Net.DnsRecords
import SunProxy.Net.DnsRoundTrip
import SunProxy.Net.DottedText
import SunProxy.Net.Drain
import SunProxy.Net.ForwardQueue
import SunProxy.Net.HostsAnswer
import SunProxy.Net.HttpHost
import SunProxy.Net.IcmpRun
import SunProxy.Net.IcmpWire
import SunProxy.Net.IpHeaders
import SunProxy.Net.Limit
import SunProxy.Net.NameAccess
import SunProxy.Net.ProcTable
import SunProxy.Net.Raddr
import SunProxy.Net.Redirected
import SunProxy.Net.Replies
import SunProxy.Net.Retransmit
import SunProxy.Net.SendWindow
import SunProxy.Net.SerialOrder
import SunProxy.Net.Socks5
import SunProxy.Net.Socks5Run
import SunProxy.Net.SynOptions
import SunProxy.Net.TcpReadBack
import SunProxy.Net.TcpRun
import SunProxy.Net.UdpPacket
import SunProxy.Net.UidCache
import SunProxy.Net.Unique
import SunProxy.Net.WindowRun
import SunProxy.Pref.Hosts
import SunProxy.Pref.Store
import SunProxy.Pref.VpnAddresses
import SunProxy.Redirect.Lines
import SunProxy.Redirect.Print
import SunProxy.Redirect.Program
import SunProxy.Redirect.ServerText
import SunProxy.Redirect.TokenText
import SunProxy.Utils.Glob
import SunProxy.Utils.InRange
import SunProxy.Utils.Ipv6Text
import SunProxy.Vpn.App
import SunProxy.Vpn.Lifecycle
import SunProxy.Vpn.Runs
